import ImageRefs.Proofs.Reference.Word

/-!
# Relative fields and their reach

A displacement is a signed number of 32 bits, but two RVAs may lie further apart than that.
A target in reach of its field is encoded as the displacement that leads to it.  The word that
is written for a target out of reach leads to no RVA at all, neither to the target nor to
another one (`AddressSpace.storedTarget?_write_rel32`).
-/

namespace ImageRefs

/-- The distance from the end of a relative field to its target is a signed number of 32
bits. -/
def InReach (fieldRva targetRva : Nat) : Prop :=
  -(0x80000000 : Int) ≤ targetRva - (fieldRva + displacementWidth)
    ∧ (targetRva : Int) - (fieldRva + displacementWidth) < 0x80000000

instance (fieldRva targetRva : Nat) : Decidable (InReach fieldRva targetRva) :=
  inferInstanceAs (Decidable (_ ∧ _))

namespace AddressSpace

variable {a : AddressSpace} {data : Bytes} {r : Reference}

/-- The only RVA that a displacement word can lead to is the one that it was computed for, and
it leads there only if that is in reach. -/
theorem eq_of_displacementWord_leads {fieldRva targetRva rva : Nat} (bound : targetRva < space32)
    (bound' : rva < space32)
    (leads : (rva : Int) = fieldRva + displacementWidth
      + signed32 (displacementWord fieldRva targetRva)) :
  rva = targetRva ∧ InReach fieldRva targetRva
  := by
  rw [signed32_displacementWord_eq_bmod] at leads
  generalize distance : (targetRva : Int) - (fieldRva + displacementWidth) = d at leads
  have low : -(0x80000000 : Int) ≤ Int.bmod d space32 := Int.le_bmod (by decide)
  have high : Int.bmod d space32 < 0x80000000 := Int.bmod_lt (by decide)
  obtain ⟨k, wraps⟩ : (space32 : Int) ∣ d - Int.bmod d space32 := Int.dvd_self_sub_bmod
  rw [space32] at bound bound' wraps low high leads
  rw [InReach, distance]
  omega

/-- The word that points from a field to a target leads to the target if that is in reach, and
nowhere otherwise. -/
theorem relativeTarget?_displacementWord {location fieldRva targetRva : Nat}
    (loaded : a.loadMap.offsetToRva? location = some fieldRva) (bound : targetRva < space32) :
  a.relativeTarget? location (signed32 (displacementWord fieldRva targetRva))
    = if InReach fieldRva targetRva then some targetRva else none
  := by
  split
  · next reach =>
    apply relativeTarget?_eq_some_iff.mpr
    use bound, fieldRva, loaded
    rw [signed32_displacementWord reach.1 reach.2]
    omega
  · next far =>
    apply Option.eq_none_iff_forall_ne_some.mpr
    intro rva found
    obtain ⟨bound', fieldRva', loaded', leads⟩ := relativeTarget?_eq_some_iff.mp found
    obtain rfl := Option.some.inj (loaded.symm.trans loaded')
    exact far (eq_of_displacementWord_leads bound bound' leads).2

/-- A relative field points to an RVA after a reference is written into it, if the field is
loaded and lies inside the buffer and the target has an RVA: it points to that RVA if it is in
reach, and to none otherwise.  Without one of these the buffer stays as it is. -/
theorem storedTarget?_write_rel32 (based : a.Based) (data : Bytes) (r : Reference) :
  (∃ fieldRva targetRva, a.loadMap.offsetToRva? r.location = some fieldRva
      ∧ a.addressToRva? r.target = some targetRva ∧ a.rvaToAddress targetRva = r.target
      ∧ r.location + displacementWidth ≤ data.size
      ∧ a.storedTarget? (a.write .rel32 data r) r.location
        = if InReach fieldRva targetRva then some targetRva else none)
    ∨ (a.loadMap.offsetToRva? r.location = none ∨ a.addressToRva? r.target = none
        ∨ data.size < r.location + displacementWidth)
      ∧ a.write .rel32 data r = data
  := by
  rw [write, word?]
  cases loaded : a.loadMap.offsetToRva? r.location with
  | none => exact Or.inr ⟨Or.inl rfl, rfl⟩
  | some fieldRva =>
    cases translated : a.addressToRva? r.target with
    | none => exact Or.inr ⟨Or.inr (Or.inl rfl), rfl⟩
    | some targetRva =>
      dsimp only [Option.bind_eq_bind, Option.bind_some, ReferenceKind.fieldWidth]
      by_cases fits : r.location + displacementWidth ≤ data.size
      · left
        use fieldRva, targetRva, rfl, rfl, rvaToAddress_of_addressToRva? based translated, fits
        have word : displacementWord fieldRva targetRva % byteCapacity displacementWidth
            = displacementWord fieldRva targetRva :=
          Nat.mod_eq_of_lt (displacementWord_lt fieldRva targetRva)
        rw [storedTarget?, Bytes.read?_write_self fits, word, Option.bind_some,
          relativeTarget?_displacementWord loaded (addressToRva?_eq_some_iff.mp translated).2.1]
      · right
        use Or.inr (Or.inr (Nat.lt_of_not_le fits)), Bytes.write_of_not_fits fits _

/-- A space of 32-bit addresses with two mappings more than 2 GiB apart. -/
def farSpace : AddressSpace :=
  ofBase .bits32 ⟨[⟨0, 8, 0, 8⟩, ⟨8, 8, 0x90000000, 8⟩]⟩ 0

/-- From a field in the second mapping the beginning of that mapping is in reach. -/
theorem storedTarget?_write_rel32_near :
  farSpace.Based
    ∧ farSpace.storedTarget?
        (farSpace.write .rel32 (Array.replicate 16 0) ⟨9, 0x90000000⟩) 9
      = some 0x90000000
  := by
  have based : farSpace.Based := based_ofBase _ _ _
  use based
  rcases storedTarget?_write_rel32 based (Array.replicate 16 0) ⟨9, 0x90000000⟩ with
    ⟨fieldRva, targetRva, loaded, translated, -, -, stored⟩ | ⟨missing, -⟩
  · obtain rfl : 0x90000001 = fieldRva := Option.some.inj loaded
    obtain rfl : 0x90000000 = targetRva := Option.some.inj translated
    rw [stored, if_pos (by decide)]
  · revert missing
    decide

/-- From a field in the first mapping that place is out of reach.  The field is written all the
same, and it does not point there. -/
theorem write_rel32_out_of_reach :
  LoadMap.ofMappings farSpace.loadMap.mappings = .ok farSpace.loadMap
    ∧ farSpace.addressToRva? 0x90000000 = some 0x90000000
    ∧ ¬ (farSpace.write .rel32 (Array.replicate 16 0) ⟨0, 0x90000000⟩ = Array.replicate 16 0
      ∨ farSpace.storedTarget?
          (farSpace.write .rel32 (Array.replicate 16 0) ⟨0, 0x90000000⟩) 0
        = farSpace.addressToRva? 0x90000000)
  := by
  use rfl
  decide +kernel

end AddressSpace

end ImageRefs
