import ImageRefs.Image.Basic
import ImageRefs.Reference.Location
import ImageRefs.Reloc.Block

/-!
# The base relocations of an image

The base relocation table names the fields that hold absolute addresses.  Of its entries
those of the kind that patches a whole address count; their locations are the file
offsets of the fields they patch, in ascending order and without repetitions.
-/

namespace ImageRefs

/-- The kind of base relocation that patches a whole address. -/
def Width.relocKind : Width → Nat
  | .bits32 => 3
  | .bits64 => 10

/-- The base relocations of an image. -/
structure RelocTable where
  blocks : List RelocBlock
  locations : List Nat
  /-- Whether the whole table could be read. -/
  complete : Bool
  deriving Repr, DecidableEq

namespace Image

/-- Whether a field of `width` bytes at `location` lies inside the image. -/
def holdsField (image : Image) (width location : Nat) : Bool :=
  decide (location + width ≤ image.bytes.size)

/-- The file offset of the field that an entry patches, if the entry has the kind that
patches a whole address and the field lies inside the image. -/
def relocLocation? (image : Image) (block : RelocBlock) (entry : RelocEntry) : Option Nat :=
  if entry.kind = image.width.relocKind then
    ((block.targetRva? entry).bind image.loadMap.rvaToOffset?).filter
      (image.holdsField image.width.bytes)
  else
    none

/-- The file offsets of the fields that the entries of a list of blocks patch, in the
order of the entries. -/
def patchedLocations (image : Image) (blocks : List RelocBlock) : List Nat :=
  blocks.flatMap fun block => block.entries.filterMap (image.relocLocation? block)

/-- The blocks of the base relocation table.  An image without a table has none, and they
are complete; a table without a file offset has none, and they are not complete. -/
def relocWalk (image : Image) : RelocWalk :=
  match image.relocationDirectory with
  | none => ⟨[], true⟩
  | some directory =>
    match image.loadMap.rvaToOffset? directory.rva with
    | none => ⟨[], false⟩
    | some offset => RelocWalk.ofRegion image.bytes ⟨offset, directory.size⟩

/-- The base relocations of the image. -/
def relocTable (image : Image) : RelocTable :=
  let walk := image.relocWalk
  ⟨walk.blocks, Locations.spaced 1 (image.patchedLocations walk.blocks), walk.complete⟩

end Image

end ImageRefs
