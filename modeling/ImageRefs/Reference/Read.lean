import ImageRefs.Address.Space
import ImageRefs.Reference.Basic

/-!
# Reading references

A reference is read from the field at a location.  Fields that do not lie inside the
buffer, and fields whose target is at no valid RVA, hold no reference.
-/

namespace ImageRefs.AddressSpace

/-- The RVA that the relative field at a location points to, valid or not. -/
def storedTarget? (a : AddressSpace) (data : Bytes) (location : Nat) : Option Nat :=
  (data.read? displacementWidth location).bind fun word =>
    a.relativeTarget? location (signed32 word)

/-- The reference in the absolute field at a location. -/
def readReloc? (a : AddressSpace) (data : Bytes) (location : Nat) : Option Reference :=
  (data.read? a.width.bytes location).bind fun target =>
    (a.validRva? target).map fun _ => ⟨location, target⟩

/-- The reference in the relative field at a location. -/
def readRel32? (a : AddressSpace) (data : Bytes) (location : Nat) : Option Reference :=
  ((a.storedTarget? data location).filter a.loadMap.validRva).map fun rva =>
    ⟨location, a.rvaToAddress rva⟩

/-- The reference of a kind in the field at a location. -/
def read? (a : AddressSpace) (kind : ReferenceKind) (data : Bytes) (location : Nat) :
    Option Reference :=
  match kind with
  | .reloc => a.readReloc? data location
  | .rel32 => a.readRel32? data location

/-- The references of a kind in the fields at a list of locations, in the order of the
list. -/
def readAll (a : AddressSpace) (kind : ReferenceKind) (data : Bytes)
    (locations : List Nat) : List Reference :=
  locations.filterMap (a.read? kind data)

end ImageRefs.AddressSpace
