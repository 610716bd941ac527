import ImageRefs.Address.LoadMap
import ImageRefs.Width

/-!
# Address spaces

An image is loaded at its base, and the absolute address of an RVA is the base plus the
RVA, modulo the number of addresses of the image's width.  So an image whose base lies
near the top of the address space has its high RVAs at low addresses.

A relative branch stores the distance from the end of its four-byte field to its target.
-/

namespace ImageRefs

/-- The signed number that a stored 32-bit word denotes. -/
def signed32 (word : Nat) : Int :=
  Int.bmod word space32

/-- Where an image is loaded: its load map, and its base among the addresses of its width. -/
structure AddressSpace where
  width : Width
  loadMap : LoadMap
  base : Nat
  deriving Repr, DecidableEq

namespace AddressSpace

/-- The address space of an image with the given base, of which only the bits that fit in
the width count. -/
def ofBase (width : Width) (loadMap : LoadMap) (imageBase : Nat) : AddressSpace :=
  ⟨width, loadMap, width.truncate imageBase⟩

/-- The RVA of an absolute address, if the address fits in the width and lies less than
4 GiB above the base. -/
def addressToRva? (a : AddressSpace) (address : Nat) : Option Nat :=
  if address < a.width.modulus then
    let rva := a.width.truncate (address + (a.width.modulus - a.base))
    if rva < space32 then some rva else none
  else
    none

/-- The absolute address of an RVA. -/
def rvaToAddress (a : AddressSpace) (rva : Nat) : Nat :=
  a.width.truncate (a.base + rva)

/-- The RVA of an absolute address that some mapping covers. -/
def validRva? (a : AddressSpace) (address : Nat) : Option Nat :=
  (a.addressToRva? address).filter a.loadMap.validRva

/-- The RVA a relative field at a file offset points to when it holds `displacement`: the
field must be loaded, and the target must be an RVA. -/
def relativeTarget? (a : AddressSpace) (location : Nat) (displacement : Int) : Option Nat :=
  (a.loadMap.offsetToRva? location).bind fun rva =>
    let target : Int := rva + displacementWidth + displacement
    if 0 ≤ target ∧ target < space32 then some target.toNat else none

/-- The 32-bit word that a relative field loaded at `fieldRva` must hold to point to
`targetRva`; the distance is taken modulo `2 ^ 32`. -/
def displacementWord (fieldRva targetRva : Nat) : Nat :=
  (((targetRva : Int) - (fieldRva + displacementWidth)) % space32).toNat

end AddressSpace

end ImageRefs
