import ImageRefs.Header.Slice
import ImageRefs.Section.Basic

/-!
# The section table

The section table is a sequence of section headers.  Its sections describe a layout of
the image when the bytes of each lie inside the file and its RVAs lie below the declared
size of the loaded image; sections may come in any order and may overlap.
-/

namespace ImageRefs

namespace Section

/-- The first `count` headers of a list of bytes. -/
def listOfBytes : (count : Nat) → List UInt8 → List Section
  | 0, _ => []
  | count + 1, bytes =>
    ofBytes (bytes.take sectionHeaderSize)
      :: listOfBytes count (bytes.drop sectionHeaderSize)

/-- The table of `count` headers at an offset of the image. -/
def readTable (data : Bytes) (offset count : Nat) : Except ImageError (List Section) :=
  (data.require offset (count * sectionHeaderSize)).map (listOfBytes count)

/-- What is wrong with the section at `index` of an image of `imageSize` bytes that takes
`sizeOfImage` bytes when loaded.  The bytes in the file are judged first. -/
def fault? (s : Section) (index imageSize sizeOfImage : Nat) : Option ImageError :=
  if imageSize < s.rawEnd then
    some (.sectionOutsideImage index s.rawOffset s.rawSize)
  else if sizeOfImage < s.virtualAddress + s.virtualSize then
    some (.sectionOutsideMemory index s.virtualAddress s.virtualSize sizeOfImage)
  else
    none

theorem fault?_eq_none_iff {s : Section} {index imageSize sizeOfImage : Nat} :
  s.fault? index imageSize sizeOfImage = none
    ↔ s.rawEnd ≤ imageSize ∧ s.virtualAddress + s.virtualSize ≤ sizeOfImage
  := by
  unfold fault?
  split
  · simp only [reduceCtorEq, false_iff]
    omega
  · split
    · simp only [reduceCtorEq, false_iff]
      omega
    · simp only [true_iff]
      omega

end Section

/-- The mappings of a list of sections, and the first offset past the file bytes of all
of them. -/
structure Layout where
  mappings : List Mapping
  bound : Nat
  deriving Repr, DecidableEq

namespace Layout

/-- The first offset past the file bytes of all sections; zero if there is no section. -/
def boundOf (sections : List Section) : Nat :=
  (sections.map Section.rawEnd).foldr max 0

/-- The layout that a list of sections describes, or the fault of the first section that
has one. -/
def ofSections (sections : List Section) (imageSize sizeOfImage : Nat) :
    Except ImageError Layout :=
  match sections.zipIdx.findSome? fun p => p.1.fault? p.2 imageSize sizeOfImage with
  | some fault => .error fault
  | none => .ok ⟨sections.map Section.mapping, boundOf sections⟩

end Layout

end ImageRefs
