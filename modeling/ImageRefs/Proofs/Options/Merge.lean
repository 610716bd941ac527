import ImageRefs.Image.File
import ImageRefs.Proofs.Json.Fields
import ImageRefs.Proofs.Json.Parse

/-!
# Options over the defaults

The options that a JSON object gives stand in place of the defaults, and those that it does not
give keep them, whatever the order of the members and whatever else the object holds
(`Options.ofText_object`).  An object that gives an option twice, or with a value that is none
for it, gives no options at all, and neither does one with a key that is no text.  There is nothing
between the two, apart from arrays that hold the options for branches in order
(`Options.exists_statedBy`).
-/

namespace ImageRefs

open Json

/-! ### How branches are recognised -/

namespace BranchOptions

/-- Some of the options. -/
structure Given where
  stayInSection : Option Bool := none
  ripRelative : Option Bool := none
  avoidRelocations : Option Bool := none

variable {members : List (List Nat × Value)}

/-- The options that are given, and the defaults for the others. -/
def Given.orDefaults (g : Given) : BranchOptions :=
  let defaults : BranchOptions := {}
  { stayInSection := g.stayInSection.getD defaults.stayInSection
    ripRelative := g.ripRelative.getD defaults.ripRelative
    avoidRelocations := g.avoidRelocations.getD defaults.avoidRelocations }

/-- Members give these options, each of them once, and no others. -/
structure Given.StatedBy (g : Given) (members : List (List Nat × Value)) : Prop where
  legible : Legible members
  stayInSection : given "restrict_jcc_to_section" members = g.stayInSection.toList.map .bool
  ripRelative : given "rip_relative" members = g.ripRelative.toList.map .bool
  avoidRelocations : given "avoid_abs32" members = g.avoidRelocations.toList.map .bool

/-- Members give an option twice, or with something that is no truth value, or have a key that
is no text. -/
inductive Faulty (members : List (List Nat × Value)) : Prop where
  | key : ¬ Legible members → Faulty members
  | twice {name : String} : name ∈ names → 2 ≤ (given name members).length → Faulty members
  | value {name : String} {v : Value} : name ∈ names → v ∈ given name members →
    (∀ b, v ≠ .bool b) → Faulty members

/-- No option is given twice. -/
theorem Given.StatedBy.length_le {g : Given} (h : g.StatedBy members) {name : String}
    (hn : name ∈ names) :
  (given name members).length ≤ 1
  := by
  simp only [names, List.mem_cons, List.not_mem_nil, or_false] at hn
  rcases hn with rfl | rfl | rfl
  · rw [h.stayInSection, List.length_map]
    apply Option.length_toList_le
  · rw [h.ripRelative, List.length_map]
    apply Option.length_toList_le
  · rw [h.avoidRelocations, List.length_map]
    apply Option.length_toList_le

/-- Members without fault give some of the options. -/
theorem exists_statedBy (sound : ¬ Faulty members) :
  ∃ g : Given, g.StatedBy members
  := by
  have legible : Legible members := by_contra fun illegible => sound (.key illegible)
  have flag (name : String) (hn : name ∈ names) :
      ∃ o : Option Bool, given name members = o.toList.map .bool := by
    have once : (given name members).length ≤ 1 :=
      Nat.le_of_not_lt fun twice => sound (.twice hn twice)
    have written : ∀ v ∈ given name members, ∃ b, True ∧ .bool b = v := by
      intro v hv
      by_contra other
      apply sound (.value hn hv fun b same => other ⟨b, trivial, same.symm⟩)
    obtain ⟨o, stated, -⟩ := exists_eq_toList_map once written
    use o
  obtain ⟨stay, hstay⟩ := flag "restrict_jcc_to_section" (by decide)
  obtain ⟨rip, hrip⟩ := flag "rip_relative" (by decide)
  obtain ⟨avoid, havoid⟩ := flag "avoid_abs32" (by decide)
  use ⟨stay, rip, avoid⟩
  apply Given.StatedBy.mk legible hstay hrip havoid

theorem ofJson?_eq_some_iff {v : Value} {o : BranchOptions} :
  ofJson? v = some o ↔ ∃ fields, v.fields? names = some fields
    ∧ Value.fieldOr fields "restrict_jcc_to_section" true Value.bool? = some o.stayInSection
    ∧ Value.fieldOr fields "rip_relative" true Value.bool? = some o.ripRelative
    ∧ Value.fieldOr fields "avoid_abs32" true Value.bool? = some o.avoidRelocations
  := by
  simp only [ofJson?, Option.bind_eq_bind, Option.bind_eq_some_iff, Option.some.injEq]
  constructor
  · rintro ⟨fields, h, _, stay, _, rip, _, avoid, rfl⟩
    use fields
  · rintro ⟨fields, h, stay, rip, avoid⟩
    exact ⟨fields, h, _, stay, _, rip, _, avoid, rfl⟩

/-- Options that are given stand in place of the defaults. -/
theorem ofJson?_of_statedBy {g : Given} (bounded : Bounded members) (h : g.StatedBy members) :
  ofJson? (.object members) = some g.orDefaults
  := by
  obtain ⟨fields, read⟩ := exists_fields? bounded h.legible fun _ => h.length_le
  apply ofJson?_eq_some_iff.mpr
  use fields, read
  constructor
  · apply fieldOr_of_given bounded read (by decide) h.stayInSection fun _ _ => rfl
  constructor
  · apply fieldOr_of_given bounded read (by decide) h.ripRelative fun _ _ => rfl
  · apply fieldOr_of_given bounded read (by decide) h.avoidRelocations fun _ _ => rfl

/-- What is given for an option that was read is a truth value. -/
theorem exists_bool_of_ofJson? {o : BranchOptions} (bounded : Bounded members)
    (h : ofJson? (.object members) = some o) {name : String} (hn : name ∈ names) {v : Value}
    (hv : v ∈ given name members) :
  ∃ b, v = .bool b
  := by
  obtain ⟨fields, read, stay, rip, avoid⟩ := ofJson?_eq_some_iff.mp h
  obtain ⟨b, accepted⟩ : ∃ b, v.bool? = some b := by
    have known := hn
    simp only [names, List.mem_cons, List.not_mem_nil, or_false] at known
    rcases known with rfl | rfl | rfl
    · apply exists_of_fieldOr bounded read hn stay hv
    · apply exists_of_fieldOr bounded read hn rip hv
    · apply exists_of_fieldOr bounded read hn avoid hv
  use b, Value.eq_bool_of_bool? accepted

/-- Members with a fault give no options. -/
theorem ofJson?_of_faulty (bounded : Bounded members) (h : Faulty members) :
  ofJson? (.object members) = none
  := by
  apply Option.eq_none_iff_forall_ne_some.mpr
  intro o given
  obtain ⟨fields, read, -⟩ := ofJson?_eq_some_iff.mp given
  cases h with
  | key illegible => apply illegible (legible_of_fields? bounded read)
  | twice hn twice =>
    have once := length_given_le_of_fields? bounded read hn
    omega
  | value hn hv other =>
    obtain ⟨b, same⟩ := exists_bool_of_ofJson? bounded given hn hv
    apply other b same

end BranchOptions

/-! ### All options -/

namespace Options

/-- Some of the options. -/
structure Given where
  maxImageSize : Option Nat := none
  branches : BranchOptions.Given := {}

variable {members : List (List Nat × Value)}

/-- The options that are given, and the defaults for the others. -/
def Given.orDefaults (g : Given) : Options :=
  let defaults : Options := {}
  { maxImageSize := g.maxImageSize.getD defaults.maxImageSize
    branches := g.branches.orDefaults }

/-- Members give these options, each of them once, and no others. -/
structure Given.StatedBy (g : Given) (members : List (List Nat × Value)) : Prop where
  legible : Legible members
  maxImageSize : given "max_image_size" members = g.maxImageSize.toList.map .nat
  bounded : ∀ size ∈ g.maxImageSize, size < space64
  branches : given "rel32" members = [] ∧ g.branches = {}
    ∨ ∃ inner, given "rel32" members = [.object inner] ∧ g.branches.StatedBy inner

/-- Members give an option twice, or with something that is none for it, or have a key that is no
text.  An array for the recognition of branches is left out, since it may hold its options in
order. -/
inductive Faulty (members : List (List Nat × Value)) : Prop where
  | key : ¬ Legible members → Faulty members
  | twice {name : String} : name ∈ names → 2 ≤ (given name members).length → Faulty members
  | size {v : Value} : v ∈ given "max_image_size" members → (∀ n < space64, v ≠ .nat n) →
    Faulty members
  | branches {v : Value} : v ∈ given "rel32" members → (∀ items, v ≠ .array items) →
    (∀ inner, v = .object inner → BranchOptions.Faulty inner) → Faulty members

/-- No option is given twice. -/
theorem Given.StatedBy.length_le {g : Given} (h : g.StatedBy members) {name : String}
    (hn : name ∈ names) :
  (given name members).length ≤ 1
  := by
  simp only [names, List.mem_cons, List.not_mem_nil, or_false] at hn
  rcases hn with rfl | rfl
  · rw [h.maxImageSize, List.length_map]
    apply Option.length_toList_le
  · rcases h.branches with ⟨none, -⟩ | ⟨inner, one, -⟩
    · rw [none]
      apply Nat.zero_le
    · rw [one]
      apply Nat.le_refl

/-- Members without fault give some of the options, unless the recognition of branches is given
as an array. -/
theorem exists_statedBy (sound : ¬ Faulty members)
    (objects : ∀ items, .array items ∉ given "rel32" members) :
  ∃ g : Given, g.StatedBy members
  := by
  have legible : Legible members := by_contra fun illegible => sound (.key illegible)
  have once {name : String} (hn : name ∈ names) : (given name members).length ≤ 1 :=
    Nat.le_of_not_lt fun twice => sound (.twice hn twice)
  have sizes : ∀ v ∈ given "max_image_size" members, ∃ n, n < space64 ∧ .nat n = v := by
    intro v hv
    by_contra other
    apply sound (.size hv fun n small same => other ⟨n, small, same.symm⟩)
  have inners : ∀ v ∈ given "rel32" members, ∃ inner,
      (∃ g : BranchOptions.Given, g.StatedBy inner) ∧ .object inner = v := by
    intro v hv
    by_contra other
    apply sound
    apply Faulty.branches hv fun items same => objects items (same ▸ hv)
    intro inner same
    by_contra innerSound
    apply other ⟨inner, BranchOptions.exists_statedBy innerSound, same.symm⟩
  obtain ⟨size, hsize, bounded⟩ := exists_eq_toList_map (once (by decide)) sizes
  obtain ⟨inner, hinner, stated⟩ := exists_eq_toList_map (once (by decide)) inners
  cases inner with
  | none =>
    use ⟨size, {}⟩
    apply Given.StatedBy.mk legible hsize bounded (.inl ⟨hinner, rfl⟩)
  | some inner =>
    obtain ⟨g, innerStated⟩ := stated inner rfl
    use ⟨size, g⟩
    apply Given.StatedBy.mk legible hsize bounded (.inr ⟨inner, hinner, innerStated⟩)

theorem ofJson?_eq_some_iff {v : Value} {o : Options} :
  ofJson? v = some o ↔ ∃ fields, v.fields? names = some fields
    ∧ Value.fieldOr fields "max_image_size" (space32 - 1) (Value.nat? space64)
      = some o.maxImageSize
    ∧ Value.fieldOr fields "rel32" {} BranchOptions.ofJson? = some o.branches
  := by
  simp only [ofJson?, Option.bind_eq_bind, Option.bind_eq_some_iff, Option.some.injEq]
  constructor
  · rintro ⟨fields, h, _, size, _, branches, rfl⟩
    use fields
  · rintro ⟨fields, h, size, branches⟩
    exact ⟨fields, h, _, size, _, branches, rfl⟩

/-- What is given for the recognition of branches is read, and nothing is the defaults. -/
theorem fieldOr_branches {g : Given} {fields : List (String × Value)} {text : List Char}
    (isElement : IsElement text (.object members)) (h : g.StatedBy members)
    (read : Value.fields? names (.object members) = some fields) :
  Value.fieldOr fields "rel32" {} BranchOptions.ofJson? = some g.branches.orDefaults
  := by
  rw [fieldOr_eq_elim (bounded_of_isElement isElement) read (by decide)]
  rcases h.branches with ⟨none, same⟩ | ⟨inner, one, stated⟩
  · rw [none, same]
    rfl
  · obtain ⟨_, inText⟩ := exists_isElement_of_mem_given isElement (one ▸ List.mem_cons_self)
    rw [one]
    apply BranchOptions.ofJson?_of_statedBy (bounded_of_isElement inText) stated

/-- Options that are given stand in place of the defaults. -/
theorem ofJson?_of_statedBy {g : Given} {text : List Char}
    (isElement : IsElement text (.object members)) (h : g.StatedBy members) :
  ofJson? (.object members) = some g.orDefaults
  := by
  have bounded := bounded_of_isElement isElement
  obtain ⟨fields, read⟩ := exists_fields? bounded h.legible fun _ => h.length_le
  apply ofJson?_eq_some_iff.mpr
  use fields, read
  constructor
  · apply fieldOr_of_given bounded read (by decide) h.maxImageSize
    intro size given
    apply Value.nat?_nat (h.bounded size given)
  · apply fieldOr_branches isElement h read

/-- Members with a fault give no options. -/
theorem ofJson?_of_faulty {text : List Char} (isElement : IsElement text (.object members))
    (h : Faulty members) :
  ofJson? (.object members) = none
  := by
  have bounded := bounded_of_isElement isElement
  apply Option.eq_none_iff_forall_ne_some.mpr
  intro o given
  -- If there were options, the fields would have been read, and each fault forbids that.
  obtain ⟨fields, read, size, branches⟩ := ofJson?_eq_some_iff.mp given
  cases h with
  | key illegible => apply illegible (legible_of_fields? bounded read)
  | twice hn twice =>
    have once := length_given_le_of_fields? bounded read hn
    omega
  | size hv other =>
    obtain ⟨n, accepted⟩ := exists_of_fieldOr bounded read (by decide) size hv
    obtain ⟨small, same⟩ := Value.eq_nat_of_nat? accepted
    apply other n small same
  | @branches v hv other faulty =>
    obtain ⟨b, accepted⟩ := exists_of_fieldOr bounded read (by decide) branches hv
    cases v with
    | array items => apply other items rfl
    | object inner =>
      obtain ⟨_, inText⟩ := exists_isElement_of_mem_given isElement hv
      rw [BranchOptions.ofJson?_of_faulty (bounded_of_isElement inText) (faulty inner rfl)]
        at accepted
      cases accepted
    | _ => cases accepted

theorem ofText?_of_isElement {text : String} {v : Value} (h : IsElement text.toList v) :
  ofText? text = ofJson? v
  := by
  rw [ofText?, parse?_eq_some_iff.mpr h, Option.bind_some]

/-- In the text of an object, options that are given, each of them once, stand in place of the
defaults, whatever the order and the layout of the members and whatever other members there are.
A text that gives an option twice, or with something that is none for it, gives no options. -/
theorem ofText_object (g : Given) (members : List (List Nat × Value)) {text : String}
    (h : IsElement text.toList (.object members)) :
  (g.StatedBy members → ofText text = .ok g.orDefaults)
    ∧ (Faulty members → ofText text = .error .options)
  := by
  constructor
  · intro stated
    rw [ofText, ofText?_of_isElement h, ofJson?_of_statedBy h stated]
  · intro faulty
    rw [ofText, ofText?_of_isElement h, ofJson?_of_faulty h faulty]

/-- Options among other members, one of them with an escape in its key; and an option that is
given twice. -/
theorem ofText_object_among_others :
  ofText ("\x7b\"note\":[-0.5],\"rel32\" :\n\x7b\"note\":1,\"avoid_abs32\":false,"
        ++ "\"note\":\x7b\x7d\x7d,\"note\":\"\\ud800\",\"max_image_siz\\u0065\":4096\x7d")
      = .ok { maxImageSize := 4096, branches := { avoidRelocations := false } }
    ∧ ofText "\x7b\"rel32\":\x7b\"rip_relative\":true,\"rip_relative\":true\x7d\x7d"
      = .error .options
  := by
  constructor
  · apply (ofText_object ⟨some 4096, ⟨none, none, some false⟩⟩ (keyed [
        ("note", .array [.number ⟨true, 0, some ['5'], none⟩]),
        ("rel32", .object (keyed
          [("note", .nat 1), ("avoid_abs32", .bool false), ("note", .object [])])),
        ("note", .string [0xD800]), ("max_image_size", .nat 4096)]) _).1
    · apply Given.StatedBy.mk (legible_keyed _)
      · simp [given_keyed]
      · rintro _ ⟨⟩
        decide
      · right
        use keyed [("note", .nat 1), ("avoid_abs32", .bool false), ("note", .object [])]
        constructor
        · simp [given_keyed]
        · apply BranchOptions.Given.StatedBy.mk (legible_keyed _)
          all_goals
            simp [given_keyed]
    · apply parse?_eq_some_iff.mp
      decide +kernel
  · apply (ofText_object {} (keyed [("rel32", .object (keyed
        [("rip_relative", .bool true), ("rip_relative", .bool true)]))]) _).2
    · apply Faulty.branches
      · rw [given_keyed]
        apply List.mem_cons_self
      · rintro _ ⟨⟩
      · rintro _ ⟨⟩
        have known : "rip_relative" ∈ BranchOptions.names := by decide
        apply BranchOptions.Faulty.twice known
        simp [given_keyed]
    · apply parse?_eq_some_iff.mp
      decide +kernel

/-- A key that is no text is refused, although it is the name of no option, and so is a zero with
a minus, although it is an integer without fraction or exponent: these texts give no options. -/
theorem ofText_surrogate_key_or_minus_zero :
  (IsElement "\x7b\"\\ud800\":0\x7d".toList (.object [([0xD800], .nat 0)])
      ∧ given "max_image_size" [([0xD800], .nat 0)] = []
      ∧ given "rel32" [([0xD800], .nat 0)] = []
      ∧ ofText "\x7b\"\\ud800\":0\x7d" ≠ .ok {})
    ∧ IsElement "\x7b\"max_image_size\":-0\x7d".toList
        (.object (keyed [("max_image_size", .number ⟨true, 0, none, none⟩)]))
      ∧ ofText "\x7b\"max_image_size\":-0\x7d" ≠ .ok { maxImageSize := 0 }
  := by
  constructor
  · use parse?_eq_some_iff.mp (by decide +kernel), rfl, rfl
    decide +kernel
  · use parse?_eq_some_iff.mp (by decide +kernel)
    decide +kernel

end Options

end ImageRefs
