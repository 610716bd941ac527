import ImageRefs.Proofs.Json.Grammar
import ImageRefs.Proofs.Text.Utf16
import Mathlib.Data.List.Basic
import Mathlib.Data.List.Nodup

/-!
# The fields of a record

The members of an object may come in any order, and which of them count depends on their keys
alone.  `given name members` lists the values that members give for a name, and the fields of a
record are what is given for its names:

* if every key is a text and no name is given twice, there are fields, and under each name stands
  the value given for it (`exists_fields?`, `lookup_of_fields?`);
* otherwise there are none (`legible_of_fields?`, `length_given_le_of_fields?`).

Keys are compared by their code units, so that two spellings of a key count as the same key.
-/

namespace ImageRefs.Json

/-! ### Keys -/

/-- Code units are those of a text: surrogates come in pairs. -/
def IsText (units : List Nat) : Prop :=
  ∃ key : String, Utf16.encode key.toList = units

/-- The keys of members are texts. -/
def Legible (members : List (List Nat × Value)) : Prop :=
  ∀ m ∈ members, IsText m.1

/-- The values that members give for a name, in order. -/
def given (name : String) (members : List (List Nat × Value)) : List Value :=
  (members.filter fun m => m.1 = Utf16.encode name.toList).map Prod.snd

theorem lt_of_isHexDigit {c : Char} {n : Nat} (h : IsHexDigit c n) :
  n < 16
  := by
  rcases h with h | h
  · apply (List.getElem?_eq_some_iff.mp h).1
  · apply (List.getElem?_eq_some_iff.mp h).1

/-- Strings hold code units of 16 bits. -/
theorem lt_of_isString {text : List Char} {units : List Nat} (h : IsString text units) :
  ∀ unit ∈ units, unit < 0x10000
  := by
  induction h with
  | nil => apply List.forall_mem_nil
  | plain _ _ _ _ ih =>
    exact List.forall_mem_append.mpr ⟨fun _ => Utf16.lt_of_mem_encodeChar, ih⟩
  | escape _ _ ih =>
    exact List.forall_mem_append.mpr ⟨fun _ => Utf16.lt_of_mem_encodeChar, ih⟩
  | unit a b c d _ ih =>
    have := lt_of_isHexDigit a
    have := lt_of_isHexDigit b
    have := lt_of_isHexDigit c
    have := lt_of_isHexDigit d
    exact List.forall_mem_cons.mpr ⟨by omega, ih⟩

theorem exists_isMember_of_mem {text : List Char} {members : List (List Nat × Value)}
    (h : IsMembers text members) {m : List Nat × Value} (hm : m ∈ members) :
  ∃ text, IsMember text m
  := by
  induction members generalizing text with
  | nil => cases hm
  | cons first members ih =>
    cases h with
    | one member =>
      rw [List.mem_singleton.mp hm]
      exact ⟨_, member⟩
    | more member behind =>
      rcases List.mem_cons.mp hm with rfl | tail
      · exact ⟨_, member⟩
      · apply ih behind tail

/-- The members of an object are written in its text. -/
theorem exists_isMember {text : List Char} {members : List (List Nat × Value)}
    (h : IsElement text (.object members)) {m : List Nat × Value} (hm : m ∈ members) :
  ∃ text, IsMember text m
  := by
  obtain ⟨-, isValue, -⟩ := h
  cases isValue with
  | emptyObject => cases hm
  | object isMembers => apply exists_isMember_of_mem isMembers hm

/-- The keys of members hold code units of 16 bits. -/
def Bounded (members : List (List Nat × Value)) : Prop :=
  ∀ m ∈ members, ∀ unit ∈ m.1, unit < 0x10000

theorem bounded_of_isElement {text : List Char} {members : List (List Nat × Value)}
    (h : IsElement text (.object members)) :
  Bounded members
  := by
  intro m hm
  obtain ⟨_, isMember⟩ := exists_isMember h hm
  obtain ⟨-, isString, -, -⟩ := isMember
  apply lt_of_isString isString

/-- What is given for a name is written in the text of the object. -/
theorem exists_isElement_of_mem_given {text : List Char} {members : List (List Nat × Value)}
    (h : IsElement text (.object members)) {name : String} {v : Value}
    (hv : v ∈ given name members) :
  ∃ text, IsElement text v
  := by
  obtain ⟨m, hm, rfl⟩ := List.mem_map.mp hv
  obtain ⟨_, isMember⟩ := exists_isMember h (List.mem_filter.mp hm).1
  obtain ⟨-, -, -, isElement⟩ := isMember
  exact ⟨_, isElement⟩

/-! ### Members by their keys -/

/-- Members whose keys are texts. -/
def keyed (members : List (String × Value)) : List (List Nat × Value) :=
  members.map fun m => (Utf16.encode m.1.toList, m.2)

theorem exists_keyed_of_legible {members : List (List Nat × Value)} (h : Legible members) :
  ∃ texts, members = keyed texts
  := by
  induction members with
  | nil => exact ⟨[], rfl⟩
  | cons m members ih =>
    obtain ⟨here, rest⟩ := List.forall_mem_cons.mp h
    obtain ⟨key, same⟩ := here
    obtain ⟨texts, rfl⟩ := ih rest
    use (key, m.2) :: texts
    rw [keyed, keyed, List.map_cons, same]

theorem legible_keyed (texts : List (String × Value)) :
  Legible (keyed texts)
  := by
  intro m hm
  obtain ⟨t, -, rfl⟩ := List.mem_map.mp hm
  exact ⟨t.1, rfl⟩

/-- What is given for a name is what stands under it. -/
theorem given_keyed (name : String) (texts : List (String × Value)) :
  given name (keyed texts) = (texts.filter fun m => m.1 = name).map Prod.snd
  := by
  have same (m : String × Value) :
      Utf16.encode m.1.toList = Utf16.encode name.toList ↔ m.1 = name :=
    ⟨fun h => String.toList_inj.mp (Utf16.encode_injective h), fun h => by rw [h]⟩
  rw [given, keyed, List.filter_map, List.map_map]
  simp only [Function.comp_def, same]

/-- Decoding the keys gives the members whose keys they are. -/
theorem mapM_eq_some_iff {members : List (List Nat × Value)} {texts : List (String × Value)}
    (bounded : Bounded members) :
  (members.mapM fun m => (Utf16.decode? m.1).map fun key => (String.ofList key, m.2)) = some texts
    ↔ members = keyed texts
  := by
  induction members generalizing texts with
  | nil =>
    cases texts with
    | nil => simp [keyed]
    | cons t texts => simp [keyed]
  | cons m members ih =>
    obtain ⟨here, rest⟩ := List.forall_mem_cons.mp bounded
    simp only [List.mapM_cons, Option.bind_eq_bind, Option.bind_eq_some_iff,
      Option.map_eq_some_iff, Utf16.decode?_eq_some_iff here, ih rest]
    constructor
    · rintro ⟨_, ⟨key, same, rfl⟩, texts, rfl, ⟨⟩⟩
      rw [keyed, keyed, List.map_cons, String.toList_ofList, same]
    · intro h
      cases texts with
      | nil => cases h
      | cons t texts =>
        obtain ⟨rfl, rfl⟩ := List.cons.inj h
        exact ⟨t, ⟨t.1.toList, rfl, by rw [String.ofList_toList]⟩, texts, rfl, rfl⟩

/-- The fields of a record are the members with one of its names, if no two have the same. -/
theorem fields?_eq_some_iff {names : List String} {members : List (List Nat × Value)}
    {fields : List (String × Value)} (bounded : Bounded members) :
  Value.fields? names (.object members) = some fields
    ↔ ∃ texts, members = keyed texts ∧ texts.filter (fun m => names.contains m.1) = fields
      ∧ (fields.map Prod.fst).Nodup
  := by
  simp only [Value.fields?, Option.bind_eq_bind, Option.bind_eq_some_iff,
    mapM_eq_some_iff bounded, Value.distinctKeys, decide_eq_true_iff,
    Option.ite_none_right_eq_some, Option.some.injEq]
  constructor
  · rintro ⟨texts, same, distinct, rfl⟩
    use texts, same, rfl
  · rintro ⟨texts, same, rfl, distinct⟩
    use texts, same, distinct

/-! ### What is given, and the fields -/

variable {names : List String} {name : String} {members : List (List Nat × Value)}
  {fields texts : List (String × Value)}

/-- A name is given as often as it is a key. -/
theorem count_map_fst (name : String) (texts : List (String × Value)) :
  (texts.map Prod.fst).count name = (given name (keyed texts)).length
  := by
  rw [given_keyed, List.length_map, ← List.countP_eq_length_filter, List.count, List.countP_map]
  congr 1

/-- The first value given for a name is the one that stands under it. -/
theorem lookup_eq_head?_given (name : String) (texts : List (String × Value)) :
  texts.lookup name = (given name (keyed texts)).head?
  := by
  rw [given_keyed]
  induction texts with
  | nil => rfl
  | cons t texts ih =>
    rw [List.lookup_cons]
    by_cases same : t.1 = name
    · simp [same]
    · have other : (name == t.1) = false := by
        simpa using Ne.symm same
      simp [same, other, ih]

/-- Leaving out members with other names changes nothing of what is given for a name. -/
theorem given_keyed_filter (hn : name ∈ names) (texts : List (String × Value)) :
  given name (keyed (texts.filter fun m => names.contains m.1)) = given name (keyed texts)
  := by
  rw [given_keyed, given_keyed, List.filter_filter]
  congr 2
  funext m
  by_cases same : m.1 = name
  · simp [same, hn]
  · simp [same]

/-- If every key is a text and no name is given twice, there are fields. -/
theorem exists_fields? (bounded : Bounded members) (legible : Legible members)
    (once : ∀ name ∈ names, (given name members).length ≤ 1) :
  ∃ fields, Value.fields? names (.object members) = some fields
  := by
  obtain ⟨texts, rfl⟩ := exists_keyed_of_legible legible
  use texts.filter fun m => names.contains m.1
  apply (fields?_eq_some_iff bounded).mpr
  use texts, rfl, rfl
  apply List.nodup_iff_count_le_one.mpr
  intro name
  by_cases known : name ∈ names
  · rw [count_map_fst, given_keyed_filter known]
    apply once name known
  · rw [List.count_eq_zero_of_not_mem]
    · apply Nat.zero_le
    · intro member
      obtain ⟨m, hm, rfl⟩ := List.mem_map.mp member
      apply known
      simpa using (List.mem_filter.mp hm).2

/-- If there are fields, every key is a text. -/
theorem legible_of_fields? (bounded : Bounded members)
    (h : Value.fields? names (.object members) = some fields) :
  Legible members
  := by
  obtain ⟨texts, rfl, -⟩ := (fields?_eq_some_iff bounded).mp h
  apply legible_keyed

/-- If there are fields, no name is given twice. -/
theorem length_given_le_of_fields? (bounded : Bounded members)
    (h : Value.fields? names (.object members) = some fields) (hn : name ∈ names) :
  (given name members).length ≤ 1
  := by
  obtain ⟨texts, rfl, rfl, distinct⟩ := (fields?_eq_some_iff bounded).mp h
  rw [← given_keyed_filter hn, ← count_map_fst]
  apply List.nodup_iff_count_le_one.mp distinct

/-- Under each name stands the value that is given for it. -/
theorem lookup_of_fields? (bounded : Bounded members)
    (h : Value.fields? names (.object members) = some fields) (hn : name ∈ names) :
  fields.lookup name = (given name members).head?
  := by
  obtain ⟨texts, rfl, rfl, -⟩ := (fields?_eq_some_iff bounded).mp h
  rw [lookup_eq_head?_given, given_keyed_filter hn]

/-! ### Fields that are read -/

variable {α : Type} {default : α} {read : Value → Option α}

/-- A field with a default is read from the value that is given for it, and is the default if
none is. -/
theorem fieldOr_eq_elim (bounded : Bounded members)
    (h : Value.fields? names (.object members) = some fields) (hn : name ∈ names) :
  Value.fieldOr fields name default read = (given name members).head?.elim (some default) read
  := by
  rw [Value.fieldOr, lookup_of_fields? bounded h hn]
  cases (given name members).head? with
  | none => rfl
  | some v => rfl

/-- A field that is given as `write` writes it, or not at all, is what is given or the
default. -/
theorem fieldOr_of_given (bounded : Bounded members)
    (h : Value.fields? names (.object members) = some fields) (hn : name ∈ names) {o : Option α}
    {write : α → Value} (stated : given name members = o.toList.map write)
    (round : ∀ a ∈ o, read (write a) = some a) :
  Value.fieldOr fields name default read = some (o.getD default)
  := by
  rw [fieldOr_eq_elim bounded h hn, stated]
  cases o with
  | none => rfl
  | some a => apply round a rfl

/-- If a field with a default has been read, what is given for it was accepted. -/
theorem exists_of_fieldOr (bounded : Bounded members)
    (h : Value.fields? names (.object members) = some fields) (hn : name ∈ names) {a : α}
    (hf : Value.fieldOr fields name default read = some a) {v : Value}
    (hv : v ∈ given name members) :
  ∃ a, read v = some a
  := by
  have once := length_given_le_of_fields? bounded h hn
  obtain ⟨w, alone⟩ := List.length_eq_one_iff.mp
    (Nat.le_antisymm once (List.length_pos_of_mem hv))
  rw [alone] at hv
  rw [fieldOr_eq_elim bounded h hn, alone, ← List.mem_singleton.mp hv] at hf
  exact ⟨a, hf⟩

/-- Values at most one of which there is, and that are all written by `write`, are what is written
of something or of nothing. -/
theorem exists_eq_toList_map {write : α → Value} {accepted : α → Prop} {values : List Value}
    (once : values.length ≤ 1) (written : ∀ v ∈ values, ∃ a, accepted a ∧ write a = v) :
  ∃ o : Option α, values = o.toList.map write ∧ ∀ a ∈ o, accepted a
  := by
  cases values with
  | nil => exact ⟨none, rfl, by simp⟩
  | cons v values =>
    obtain rfl : values = [] :=
      List.length_eq_zero_iff.mp (Nat.le_zero.mp (Nat.le_of_succ_le_succ once))
    obtain ⟨a, ha, rfl⟩ := written v List.mem_cons_self
    exact ⟨some a, rfl, by simpa using ha⟩

namespace Value

theorem eq_bool_of_bool? {b : Bool} {v : Value} (h : v.bool? = some b) :
  v = .bool b
  := by
  cases v with
  | bool c => rw [Option.some.inj h]
  | _ => cases h

theorem nat?_nat {bound n : Nat} (h : n < bound) :
  (nat n).nat? bound = some n
  := by
  simp [nat, nat?, h]

/-- Only what is written with nothing but digits is read as a natural number. -/
theorem eq_nat_of_nat? {bound n : Nat} {v : Value} (h : v.nat? bound = some n) :
  n < bound ∧ v = nat n
  := by
  cases v with
  | number m =>
    obtain ⟨whole, bounded⟩ := Option.filter_eq_some_iff.mp h
    obtain ⟨negative, whole, fraction, exponent⟩ := m
    obtain ⟨plain, same⟩ := Option.ite_none_left_eq_some.mp whole
    cases same
    simp only [Bool.or_eq_true, not_or, Bool.not_eq_true, Option.isSome_eq_false_iff,
      Option.isNone_iff_eq_none] at plain
    obtain ⟨⟨rfl, rfl⟩, rfl⟩ := plain
    exact ⟨of_decide_eq_true bounded, rfl⟩
  | _ => cases h

end Value

end ImageRefs.Json
