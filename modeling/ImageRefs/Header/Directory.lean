import ImageRefs.Header.Slice

/-!
# Data directories

A data directory is an RVA and a size, four bytes each, and names a table of the image.
Of a longer list only the first sixteen directories count.
-/

namespace ImageRefs

/-- Where a table of the image is loaded, and its size. -/
structure DataDirectory where
  rva : Nat
  size : Nat
  deriving Repr, DecidableEq

namespace DataDirectory

/-- The size of a data directory. -/
def byteSize : Nat := 8

/-- The number of data directories that count. -/
def maxCount : Nat := 16

/-- The place of the base relocation table among the data directories. -/
def baseRelocationIndex : Nat := 5

/-- Whether the directory names a table. -/
def isPresent (d : DataDirectory) : Bool :=
  d.rva != 0 && d.size != 0

/-- The `count` directories from `offset` on.  The end of a directory that is missing is a plain
sum: it is reported as it is, and stops the reader if it has more than 64 bits. -/
def readFrom (data : Bytes) : (count : Nat) → (offset : Nat) →
    Except ImageError (List DataDirectory)
  | 0, _ => .ok []
  | count + 1, offset =>
    match data.read? 4 offset, data.read? 4 (offset + 4) with
    | some rva, some size => do
      let rest ← readFrom data count (offset + byteSize)
      .ok (⟨rva, size⟩ :: rest)
    | _, _ =>
      if offset + byteSize < space64 then
        .error (.truncated (offset + byteSize) data.size)
      else
        .error .overflow

/-- The directories that count, of `count` directories from `offset` on. -/
def read (data : Bytes) (offset count : Nat) : Except ImageError (List DataDirectory) :=
  readFrom data (min count maxCount) offset

end DataDirectory

end ImageRefs
