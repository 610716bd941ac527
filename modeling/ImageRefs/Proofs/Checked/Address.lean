import ImageRefs.Proofs.Address.Lookup
import ImageRefs.Proofs.Checked.Basic
import ImageRefs.Reference.Read

/-!
# Checked lookups

A lookup in a load map computes one difference and one sum.  If the ranges of the mappings have
ends of 32 bits, neither has a fault, whatever is looked up.
-/

namespace ImageRefs.Checked

/-- `LoadMap.offsetToRva?`, checked. -/
def offsetToRva (l : LoadMap) (offset : Nat) : Checked (Option Nat) :=
  match l.mappings.find? (·.coversOffset offset) with
  | none => .ok none
  | some m => do
    let distance ← difference offset m.offsetBegin
    let rva ← sum space32 m.rvaBegin distance
    .ok (some rva)

/-- `LoadMap.rvaToOffset?`, checked. -/
def rvaToOffset (l : LoadMap) (rva : Nat) : Checked (Option Nat) :=
  match l.mappings.find? (·.coversRva rva) with
  | none => .ok none
  | some m => do
    let distance ← difference rva m.rvaBegin
    if distance < m.shared then
      let offset ← sum space32 m.offsetBegin distance
      .ok (some offset)
    else
      .ok none

/-- `AddressSpace.relativeTarget?`, checked. -/
def relativeTarget (a : AddressSpace) (location : Nat) (displacement : Int) :
    Checked (Option Nat) := do
  match ← offsetToRva a.loadMap location with
  | none => .ok none
  | some rva =>
    let target : Int := rva + displacementWidth + displacement
    .ok (if 0 ≤ target ∧ target < space32 then some target.toNat else none)

section Bounded

variable {l : LoadMap} (bounded : ∀ m ∈ l.mappings, m.Bounded)
include bounded

theorem offsetToRva_eq_ok (offset : Nat) :
  offsetToRva l offset = .ok (l.offsetToRva? offset)
  := by
  rw [offsetToRva, LoadMap.offsetToRva?]
  cases found : l.mappings.find? (·.coversOffset offset) with
  | none => rfl
  | some m =>
    have covers := List.find?_some found
    have loads := Mapping.loads_of_coversOffset covers
    have rva := (bounded m (List.mem_of_find?_eq_some found)).lt_of_loads loads
    dsimp only
    rw [difference_eq_ok ((m.coversOffset_iff offset).mp covers).1, ok_bind,
      sum_eq_ok rva.2, ok_bind, Option.map_some]

theorem rvaToOffset_eq_ok (rva : Nat) :
  rvaToOffset l rva = .ok (l.rvaToOffset? rva)
  := by
  rw [rvaToOffset, LoadMap.rvaToOffset?]
  cases found : l.mappings.find? (·.coversRva rva) with
  | none => rfl
  | some m =>
    have covers := List.find?_some found
    dsimp only
    rw [difference_eq_ok ((m.coversRva_iff rva).mp covers).1, ok_bind, Option.bind_some]
    split
    · next backed =>
      have loads := Mapping.loads_of_coversRva covers backed
      have offset := (bounded m (List.mem_of_find?_eq_some found)).lt_of_loads loads
      rw [sum_eq_ok offset.1, ok_bind]
    · rfl

theorem relativeTarget_eq_ok {a : AddressSpace} (loadMap : a.loadMap = l) (location : Nat)
    (displacement : Int) :
  relativeTarget a location displacement = .ok (a.relativeTarget? location displacement)
  := by
  rw [relativeTarget, AddressSpace.relativeTarget?, loadMap, offsetToRva_eq_ok bounded, ok_bind]
  cases l.offsetToRva? location with
  | none => rfl
  | some rva => rfl

end Bounded

/-- A mapping whose RVAs do not end below `space32` has bytes at which the lookup has a fault. -/
example : offsetToRva ⟨[⟨0x400, 4, 0xFFFFFFFE, 4⟩]⟩ 0x403 = .error .overflow := by decide

end ImageRefs.Checked
