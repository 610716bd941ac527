import ImageRefs.Address.Space
import ImageRefs.Reference.Basic

/-!
# Writing references

A reference is written into the field at its location.  A field that does not lie inside
the buffer is left as it is, and so is a relative field if it is not loaded or its target
has no RVA.  The displacement of a relative field is taken modulo `2 ^ 32`.
-/

namespace ImageRefs.AddressSpace

/-- The word that the field of a reference must hold, if there is one. -/
def word? (a : AddressSpace) (kind : ReferenceKind) (r : Reference) : Option Nat :=
  match kind with
  | .reloc => some (a.width.truncate r.target)
  | .rel32 => do
    let fieldRva ← a.loadMap.offsetToRva? r.location
    let targetRva ← a.addressToRva? r.target
    some (displacementWord fieldRva targetRva)

/-- The buffer with a reference written into it. -/
def write (a : AddressSpace) (kind : ReferenceKind) (data : Bytes) (r : Reference) : Bytes :=
  match a.word? kind r with
  | none => data
  | some word => data.write (kind.fieldWidth a.width) r.location word

/-- The buffer with a list of references written into it one after the other. -/
def writeAll (a : AddressSpace) (kind : ReferenceKind) (data : Bytes)
    (references : List Reference) : Bytes :=
  references.foldl (a.write kind) data

/-- Writing keeps the size of the buffer. -/
@[simp]
theorem size_write (a : AddressSpace) (kind : ReferenceKind) (data : Bytes) (r : Reference) :
  (a.write kind data r).size = data.size
  := by
  unfold write
  split <;> simp

end ImageRefs.AddressSpace
