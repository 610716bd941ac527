import ImageRefs.Proofs.Reference.Word
import Mathlib.Data.List.Basic

/-!
# Reading references

What the reference in a field is, for either kind of fields, and at which locations of a list
references are read.
-/

namespace ImageRefs.AddressSpace

variable {a : AddressSpace} {kind : ReferenceKind} {data : Bytes} {references : List Reference}

/-- The reference in an absolute field has the address that is stored there as its target, and
the RVA of the address is valid. -/
theorem read?_reloc_eq_some_iff {location : Nat} {r : Reference} :
  a.read? .reloc data location = some r
    ↔ r.location = location ∧ data.read? a.width.bytes location = some r.target
      ∧ ∃ rva, a.addressToRva? r.target = some rva ∧ a.loadMap.validRva rva = true
  := by
  simp only [read?, readReloc?, Option.bind_eq_some_iff, Option.map_eq_some_iff,
    validRva?_eq_some_iff]
  constructor
  · rintro ⟨target, stored, rva, valid, rfl⟩
    use rfl, stored, rva
  · rintro ⟨rfl, stored, rva, valid⟩
    use r.target, stored, rva

/-- Whether the target of a reference has a valid RVA. -/
def hasTarget (a : AddressSpace) (r : Reference) : Bool :=
  (a.validRva? r.target).isSome

/-- The reference in an absolute field is the address that is stored there, if this has a valid
RVA. -/
theorem read?_reloc_eq (a : AddressSpace) (data : Bytes) (location : Nat) :
  a.read? .reloc data location
    = ((data.read? a.width.bytes location).map (Reference.mk location)).filter a.hasTarget
  := by
  rw [read?, readReloc?]
  cases data.read? a.width.bytes location with
  | none => rfl
  | some target =>
    rw [Option.bind_some, Option.map_some, Option.filter_some, hasTarget]
    cases a.validRva? target with
    | none => rfl
    | some rva => rfl

/-- A reference that is read has a target with a valid RVA. -/
theorem hasTarget_of_read? {location : Nat} {r : Reference}
    (h : a.read? .reloc data location = some r) :
  a.hasTarget r = true
  := by
  rw [read?_reloc_eq] at h
  apply (Option.filter_eq_some_iff.mp h).2

/-- The reference in a relative field has the absolute address of an RVA that is valid and to
which the field points. -/
theorem read?_rel32_eq_some_iff {location : Nat} {r : Reference} :
  a.read? .rel32 data location = some r
    ↔ ∃ rva, a.storedTarget? data location = some rva ∧ a.loadMap.validRva rva = true
      ∧ ⟨location, a.rvaToAddress rva⟩ = r
  := by
  simp only [read?, readRel32?, Option.map_eq_some_iff, Option.filter_eq_some_iff, and_assoc]

/-! ### Lists of fields -/

/-- If there is a reference in each field of a list, then one is read at each location, in the
order of the list. -/
theorem map_location_readAll (based : a.Based) {locations : List Nat}
    (each : ∀ l ∈ locations, ∃ r, a.read? kind data l = some r) :
  (a.readAll kind data locations).map (·.location) = locations
  := by
  have here : ∀ l ∈ locations, (a.read? kind data l).map (·.location) = some l := by
    intro l hl
    obtain ⟨r, hr⟩ := each l hl
    rw [hr, Option.map_some, (stored_of_read? based hr).1]
  rw [readAll, List.map_filterMap, List.filterMap_congr here, List.filterMap_some]

/-- If each reference of a list is in its field, then reading at their locations gives the
list. -/
theorem readAll_map_location
    (stored : ∀ r ∈ references, a.read? kind data r.location = some r) :
  a.readAll kind data (references.map (·.location)) = references
  := by
  have each : references.filterMap (a.read? kind data ∘ (·.location))
      = references.filterMap some := by
    apply List.filterMap_congr stored
  rw [readAll, List.filterMap_map, each, List.filterMap_some]

/-- The references that are read at a list of locations have locations from the list, in its
order. -/
theorem map_location_readAll_sublist (based : a.Based) (locations : List Nat) :
  ((a.readAll kind data locations).map (·.location)).Sublist locations
  := by
  induction locations with
  | nil => apply List.Sublist.refl
  | cons location locations ih =>
    rw [readAll, List.filterMap_cons]
    split
    · apply ih.cons
    · next r h =>
      rw [List.map_cons, (stored_of_read? based h).1]
      apply ih.cons_cons

end ImageRefs.AddressSpace
