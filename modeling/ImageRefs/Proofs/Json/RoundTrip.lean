import ImageRefs.Proofs.Json.Print
import ImageRefs.Proofs.Options.Merge
import ImageRefs.Reference.Basic

/-!
# Options and references as text

Options and references are read back from the text that is written for them, up to the largest
numbers they can hold, and no two options or references are written as the same text
(`ofText_toText`).
-/

namespace ImageRefs

open Json

namespace BranchOptions

theorem writable_toJson (o : BranchOptions) :
  o.toJson.Writable
  := by
  apply Value.writable_record
  simp [Value.Writable.bool]

theorem toJson_injective {o p : BranchOptions} (h : o.toJson = p.toJson) :
  o = p
  := by
  cases o
  cases p
  simpa [toJson, Value.record] using h

end BranchOptions

namespace Options

theorem writable_toJson (o : Options) :
  o.toJson.Writable
  := by
  apply Value.writable_record
  simp [Value.writable_nat, BranchOptions.writable_toJson]

theorem toJson_injective {o p : Options} (h : o.toJson = p.toJson) :
  o = p
  := by
  obtain ⟨size, branches⟩ := o
  obtain ⟨size', branches'⟩ := p
  simp only [toJson, Value.record, Value.nat, Number.ofNat, List.map_cons, List.map_nil,
    Value.object.injEq, List.cons.injEq, Prod.mk.injEq, true_and, and_true, Value.number.injEq,
    Number.mk.injEq] at h
  rw [h.1, BranchOptions.toJson_injective h.2]

/-- All of the options. -/
def toGiven (o : Options) : Given where
  maxImageSize := some o.maxImageSize
  branches :=
    { stayInSection := some o.branches.stayInSection
      ripRelative := some o.branches.ripRelative
      avoidRelocations := some o.branches.avoidRelocations }

/-- What is written for options gives all of them. -/
theorem statedBy_toJson {o : Options} (h : o.maxImageSize < space64) :
  o.toGiven.StatedBy (keyed [("max_image_size", .nat o.maxImageSize),
    ("rel32", o.branches.toJson)])
  := by
  apply Given.StatedBy.mk (legible_keyed _)
  · simp [given_keyed, toGiven]
  · rintro _ ⟨⟩
    exact h
  · right
    use keyed [("restrict_jcc_to_section", .bool o.branches.stayInSection),
      ("rip_relative", .bool o.branches.ripRelative),
      ("avoid_abs32", .bool o.branches.avoidRelocations)]
    constructor
    · rw [given_keyed]
      simp [BranchOptions.toJson, Value.record, keyed]
    · apply BranchOptions.Given.StatedBy.mk (legible_keyed _)
      all_goals
        simp [given_keyed, toGiven]

/-- Options are read back from their text. -/
theorem ofText?_toText {o : Options} (h : o.maxImageSize < space64) :
  ofText? o.toText = some o
  := by
  have parsed := Value.parse?_pretty o.writable_toJson
  rw [ofText?, toText, String.toList_ofList, parsed, Option.bind_some]
  apply ofJson?_of_statedBy (parse?_eq_some_iff.mp parsed) (statedBy_toJson h)

theorem toText_inj {o p : Options} (h : o.toText = p.toText) :
  o = p
  := by
  apply toJson_injective
  apply Value.eq_of_render_eq Style.blank_pretty o.writable_toJson p.writable_toJson
  apply String.ofList_injective h

end Options

namespace Reference

theorem writable_toJson (r : Reference) :
  r.toJson.Writable
  := by
  apply Value.writable_record
  simp [Value.writable_nat]

theorem toJson_injective {r s : Reference} (h : r.toJson = s.toJson) :
  r = s
  := by
  cases r
  cases s
  simpa [toJson, Value.record, Value.nat, Number.ofNat] using h

theorem ofJson?_toJson {r : Reference} (hl : r.location < space32) (ht : r.target < space64) :
  ofJson? r.toJson = some r
  := by
  have once : ∀ name ∈ ["location", "target"],
      (given name (keyed [("location", .nat r.location), ("target", .nat r.target)])).length
        ≤ 1 := by
    simp [given_keyed]
  obtain ⟨fields, read⟩ := exists_fields? (bounded_keyed _) (legible_keyed _) once
  change r.toJson.fields? ["location", "target"] = some fields at read
  have location : fields.lookup "location" = some (.nat r.location) := by
    rw [lookup_of_fields? (bounded_keyed _) read (by decide), given_keyed]
    simp
  have target : fields.lookup "target" = some (.nat r.target) := by
    rw [lookup_of_fields? (bounded_keyed _) read (by decide), given_keyed]
    simp
  simp only [ofJson?, read, Value.field?, location, target, Value.nat?_nat hl, Value.nat?_nat ht,
    Option.bind_eq_bind, Option.bind_some]

/-- References are read back from their text. -/
theorem ofText?_toText {r : Reference} (hl : r.location < space32) (ht : r.target < space64) :
  ofText? r.toText = some r
  := by
  rw [ofText?, toText, String.toList_ofList, Value.parse?_compact r.writable_toJson,
    Option.bind_some, ofJson?_toJson hl ht]

theorem toText_inj {r s : Reference} (h : r.toText = s.toText) :
  r = s
  := by
  apply toJson_injective
  apply Value.eq_of_render_eq Style.blank_compact r.writable_toJson s.writable_toJson
  apply String.ofList_injective h

end Reference

/-- Options and references are read back from their texts, if their numbers have the widths that
are read, and different ones have different texts. -/
theorem ofText_toText :
  (∀ o : Options, o.maxImageSize < space64 → Options.ofText o.toText = .ok o)
    ∧ (∀ r : Reference, r.location < space32 → r.target < space64 →
      Reference.ofText? r.toText = some r)
    ∧ Function.Injective Options.toText
    ∧ Function.Injective Reference.toText
  := by
  constructor
  · intro o h
    rw [Options.ofText, Options.ofText?_toText h]
  constructor
  · intro r hl ht
    apply Reference.ofText?_toText hl ht
  constructor
  · intro o p h
    apply Options.toText_inj h
  · intro r s h
    apply Reference.toText_inj h

/-- The largest numbers are read back. -/
theorem ofText_toText_largest :
  Options.ofText (Options.toText ⟨space64 - 1, ⟨false, true, false⟩⟩)
      = .ok ⟨space64 - 1, ⟨false, true, false⟩⟩
    ∧ Reference.ofText? (Reference.toText ⟨space32 - 1, space64 - 1⟩)
      = some ⟨space32 - 1, space64 - 1⟩
  := by
  constructor
  · apply ofText_toText.1
    decide
  · apply ofText_toText.2.1
    · decide
    · decide

end ImageRefs
