import ImageRefs.Address.Space
import Mathlib.Algebra.Group.Int.Defs
import Mathlib.Algebra.Group.Nat.Defs
import Mathlib.Tactic.Use

/-!
# Addresses and displacements, there and back

* An RVA has an absolute address and is the RVA of it, and an absolute address that has an
  RVA is the address of it, whatever the base (`AddressSpace.conversions_ofBase`).
* The word that points from a field to a target, and the target that a word in the field
  points to, determine each other as long as the distance is a signed number of 32 bits.
-/

namespace ImageRefs

/-- Every RVA is less than the number of addresses. -/
theorem Width.space32_le_modulus (w : Width) :
  space32 ≤ w.modulus
  := by
  cases w <;> decide

/-- The number of addresses is the number of values that the bits of an address can hold. -/
theorem Width.modulus_eq_two_pow (w : Width) :
  w.modulus = 2 ^ (8 * w.bytes)
  := by
  cases w <;> decide

namespace AddressSpace

/-! ### Addresses -/

/-- The base of an address space is one of its addresses. -/
def Based (a : AddressSpace) : Prop :=
  a.base < a.width.modulus

theorem based_ofBase (width : Width) (loadMap : LoadMap) (imageBase : Nat) :
  (ofBase width loadMap imageBase).Based
  := width.truncate_lt imageBase

theorem addressToRva?_eq_some_iff {a : AddressSpace} {address rva : Nat} :
  a.addressToRva? address = some rva
    ↔ address < a.width.modulus ∧ rva < space32
      ∧ a.width.truncate (address + (a.width.modulus - a.base)) = rva
  := by
  rw [addressToRva?]
  dsimp only
  constructor
  · intro h
    split at h
    · next fits =>
      split at h
      · next bound =>
        cases h
        use fits, bound
      · cases h
    · cases h
  · rintro ⟨fits, bound, rfl⟩
    rw [if_pos fits, if_pos bound]

/-- How far an absolute address lies above the base, modulo the number of addresses. -/
def distance (a : AddressSpace) (address : Nat) : Int :=
  ((address : Int) - a.base) % a.width.modulus

theorem truncate_add_sub_base {a : AddressSpace} (based : a.Based) (address : Nat) :
  (a.width.truncate (address + (a.width.modulus - a.base)) : Int) = a.distance address
  := by
  rw [Based] at based
  rw [Width.truncate, distance, Int.natCast_emod,
    show ((address + (a.width.modulus - a.base) : Nat) : Int)
      = address - a.base + a.width.modulus by omega,
    Int.add_emod_right]

/-- The RVA of an absolute address is its distance from the base, if that is an RVA. -/
theorem addressToRva?_eq_some_iff_distance {a : AddressSpace} (based : a.Based)
    {address rva : Nat} :
  a.addressToRva? address = some rva
    ↔ address < a.width.modulus ∧ rva < space32 ∧ a.distance address = rva
  := by
  rw [addressToRva?_eq_some_iff, ← truncate_add_sub_base based, Int.natCast_inj]

/-- An absolute address has no RVA exactly if it does not fit in the width or lies 4 GiB or
more above the base. -/
theorem addressToRva?_eq_none_iff {a : AddressSpace} (based : a.Based) {address : Nat} :
  a.addressToRva? address = none
    ↔ a.width.modulus ≤ address ∨ space32 ≤ a.distance address
  := by
  rw [← truncate_add_sub_base based, addressToRva?]
  dsimp only
  split
  · split
    · simp only [reduceCtorEq, false_iff]
      omega
    · simp only [true_iff]
      omega
  · simp only [true_iff]
    omega

/-- The absolute address of an RVA has that RVA. -/
theorem addressToRva?_rvaToAddress {a : AddressSpace} (based : a.Based) {rva : Nat}
    (h : rva < space32) :
  a.addressToRva? (a.rvaToAddress rva) = some rva
  := by
  apply addressToRva?_eq_some_iff.mpr
  use a.width.truncate_lt _, h
  have below := a.width.space32_le_modulus
  rw [Based] at based
  rw [rvaToAddress, Width.truncate, Width.truncate, Nat.mod_add_mod,
    show a.base + rva + (a.width.modulus - a.base) = rva + a.width.modulus by omega,
    Nat.add_mod_right, Nat.mod_eq_of_lt (by omega)]

/-- An absolute address that has an RVA is the address of that RVA. -/
theorem rvaToAddress_of_addressToRva? {a : AddressSpace} (based : a.Based) {address rva : Nat}
    (h : a.addressToRva? address = some rva) :
  a.rvaToAddress rva = address
  := by
  obtain ⟨fits, -, rfl⟩ := addressToRva?_eq_some_iff.mp h
  rw [Based] at based
  rw [rvaToAddress, Width.truncate, Width.truncate, Nat.add_mod_mod,
    show a.base + (address + (a.width.modulus - a.base)) = address + a.width.modulus by omega,
    Nat.add_mod_right, Nat.mod_eq_of_lt fits]

/-- The distance of an absolute address from the base may be measured from an image base of
which the bits that do not fit in the width have not been dropped. -/
theorem distance_ofBase (width : Width) (loadMap : LoadMap) (imageBase address : Nat) :
  (ofBase width loadMap imageBase).distance address
    = ((address : Int) - imageBase) % width.modulus
  := by
  rw [distance, ofBase, Width.truncate, Int.natCast_emod, Int.sub_emod_emod]

/-- Different RVAs have different absolute addresses. -/
theorem eq_of_rvaToAddress_eq {a : AddressSpace} (based : a.Based) {rva other : Nat}
    (h : rva < space32) (h' : other < space32)
    (same : a.rvaToAddress rva = a.rvaToAddress other) :
  rva = other
  := by
  have there := addressToRva?_rvaToAddress based h
  rw [same, addressToRva?_rvaToAddress based h'] at there
  apply (Option.some.inj there).symm

/-- Every address of 32 bits has an RVA, if addresses have 32 bits. -/
theorem exists_addressToRva?_of_bits32 {a : AddressSpace} (narrow : a.width = .bits32)
    {address : Nat} (h : address < space32) :
  ∃ rva, a.addressToRva? address = some rva
  := by
  have modulus : a.width.modulus = space32 := by
    rw [narrow]
    rfl
  have bound := a.width.truncate_lt (address + (a.width.modulus - a.base))
  use a.width.truncate (address + (a.width.modulus - a.base))
  apply addressToRva?_eq_some_iff.mpr
  rw [modulus] at bound ⊢
  use h, bound

/-- The absolute addresses of an image, whatever its base, and its RVAs are converted into each
other without loss.

* The address of an RVA fits in the width and has that RVA.
* An address that has an RVA is the address of it.
* An address has no RVA exactly if it does not fit in the width or lies, modulo the number of
  addresses, 4 GiB or more above the base.
* Different RVAs have different addresses.
* In an image with 32-bit addresses every address has an RVA. -/
theorem conversions_ofBase (width : Width) (loadMap : LoadMap) (imageBase : Nat) :
  let a := ofBase width loadMap imageBase
  (∀ rva < space32, a.rvaToAddress rva < width.modulus
      ∧ a.addressToRva? (a.rvaToAddress rva) = some rva)
    ∧ (∀ address rva, a.addressToRva? address = some rva → a.rvaToAddress rva = address)
    ∧ (∀ address, a.addressToRva? address = none
      ↔ width.modulus ≤ address
        ∨ (space32 : Int) ≤ ((address : Int) - imageBase) % width.modulus)
    ∧ (∀ rva < space32, ∀ other < space32,
      a.rvaToAddress rva = a.rvaToAddress other → rva = other)
    ∧ (width = .bits32 → ∀ address < space32, ∃ rva, a.addressToRva? address = some rva)
  := by
  intro a
  have based := based_ofBase width loadMap imageBase
  and_intros
  · intro rva h
    use width.truncate_lt _, addressToRva?_rvaToAddress based h
  · intro address rva
    apply rvaToAddress_of_addressToRva? based
  · intro address
    rw [addressToRva?_eq_none_iff based, distance_ofBase]
    rfl
  · intro rva h other h'
    apply eq_of_rvaToAddress_eq based h h'
  · intro narrow address
    apply exists_addressToRva?_of_bits32 narrow

/-- At a base near the top of the 64-bit addresses an RVA beyond the top has a low address, and
that address has this RVA. -/
theorem conversions_ofBase_wrapped :
  (ofBase .bits64 ⟨[]⟩ 0xFFFFFFFFFFFFF000).rvaToAddress 0x1010 = 0x10
    ∧ (ofBase .bits64 ⟨[]⟩ 0xFFFFFFFFFFFFF000).addressToRva? 0x10 = some 0x1010
  := by
  have address : (ofBase .bits64 ⟨[]⟩ 0xFFFFFFFFFFFFF000).rvaToAddress 0x1010 = 0x10 := by
    decide
  obtain ⟨conversions, -⟩ := conversions_ofBase .bits64 ⟨[]⟩ 0xFFFFFFFFFFFFF000
  obtain ⟨-, back⟩ := conversions 0x1010 (by decide)
  rw [address] at back
  exact ⟨address, back⟩

/-- An absolute address has a valid RVA if its RVA is valid. -/
theorem validRva?_eq_some_iff {a : AddressSpace} {address rva : Nat} :
  a.validRva? address = some rva
    ↔ a.addressToRva? address = some rva ∧ a.loadMap.validRva rva = true
  := Option.filter_eq_some_iff

/-! ### Displacements -/

theorem relativeTarget?_eq_some_iff {a : AddressSpace} {location rva : Nat}
    {displacement : Int} :
  a.relativeTarget? location displacement = some rva
    ↔ rva < space32 ∧ ∃ fieldRva, a.loadMap.offsetToRva? location = some fieldRva
      ∧ (rva : Int) = fieldRva + displacementWidth + displacement
  := by
  rw [relativeTarget?]
  cases a.loadMap.offsetToRva? location with
  | none => simp
  | some fieldRva =>
    simp only [Option.bind_some, Option.some.injEq, exists_eq_left']
    split
    · next inside =>
      simp only [Option.some.injEq]
      omega
    · simp only [reduceCtorEq, false_iff]
      omega

/-- A displacement word is the distance between two RVAs modulo the number of words. -/
theorem natCast_displacementWord (fieldRva targetRva : Nat) :
  (displacementWord fieldRva targetRva : Int)
    = (targetRva - (fieldRva + displacementWidth)) % space32
  := by
  apply Int.toNat_of_nonneg
  apply Int.emod_nonneg
  decide

/-- A displacement word has 32 bits. -/
theorem displacementWord_lt (fieldRva targetRva : Nat) :
  displacementWord fieldRva targetRva < space32
  := by
  rw [displacementWord, space32]
  omega

/-- The word that points to the target of a word is that word. -/
theorem displacementWord_of_target {fieldRva targetRva word : Nat} (h : word < space32)
    (target : (targetRva : Int) = fieldRva + displacementWidth + signed32 word) :
  displacementWord fieldRva targetRva = word
  := by
  rw [displacementWord, target, show ∀ x y : Int, x + y - x = y by omega, signed32, Int.bmod_emod,
    Int.emod_eq_of_lt (by omega) (by omega)]
  rfl

/-- A displacement word denotes the distance between two RVAs up to a multiple of the number
of words. -/
theorem signed32_displacementWord_eq_bmod (fieldRva targetRva : Nat) :
  signed32 (displacementWord fieldRva targetRva)
    = Int.bmod (targetRva - (fieldRva + displacementWidth)) space32
  := by
  rw [signed32, natCast_displacementWord, Int.emod_bmod]

/-- A word that points to a target denotes the distance to it, if the distance is a signed
number of 32 bits. -/
theorem signed32_displacementWord {fieldRva targetRva : Nat}
    (low : -(0x80000000 : Int) ≤ targetRva - (fieldRva + displacementWidth))
    (high : (targetRva : Int) - (fieldRva + displacementWidth) < 0x80000000) :
  signed32 (displacementWord fieldRva targetRva) = targetRva - (fieldRva + displacementWidth)
  := by
  rw [signed32_displacementWord_eq_bmod]
  apply Int.bmod_eq_of_le low high

end AddressSpace

end ImageRefs
