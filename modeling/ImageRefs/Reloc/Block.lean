import ImageRefs.Bytes.Region

/-!
# Blocks of base relocations

A base relocation table is a sequence of blocks.  A block begins with the RVA of a page
and the size of the block in bytes, four bytes each, and goes on with entries of two
bytes, whose high four bits are the kind of the relocation and whose low twelve bits are
an offset in the page.

`RelocWalk.ofBytes` reads blocks as long as they are well formed.  `encode` writes blocks
in the same format.
-/

namespace ImageRefs

/-- An entry of a block of base relocations. -/
structure RelocEntry where
  kind : Nat
  pageOffset : Nat
  deriving Repr, DecidableEq

namespace RelocEntry

/-- The size of an entry. -/
def byteSize : Nat := 2

/-- The number of offsets in a page. -/
def pageSize : Nat := 0x1000

/-- The entry stored as a 16-bit word. -/
def ofWord (word : Nat) : RelocEntry :=
  ⟨word / pageSize, word % pageSize⟩

/-- The 16-bit word that stores the entry. -/
def toWord (e : RelocEntry) : Nat :=
  e.kind * pageSize + e.pageOffset

/-- The entries stored in a list of bytes; an odd byte at the end is left out. -/
def listOfBytes : List UInt8 → List RelocEntry
  | low :: high :: rest => ofWord (ofLE [low, high]) :: listOfBytes rest
  | _ => []

end RelocEntry

/-- A block of base relocations. -/
structure RelocBlock where
  /-- The file offset of the block, of which 32 bits are kept. -/
  offset : Nat
  pageRva : Nat
  entries : List RelocEntry
  deriving Repr, DecidableEq

namespace RelocBlock

/-- The size of the page RVA and the block size. -/
def headerSize : Nat := 8

/-- The RVA of the field that an entry of the block patches, if it is one. -/
def targetRva? (b : RelocBlock) (e : RelocEntry) : Option Nat :=
  if b.pageRva + e.pageOffset < space32 then some (b.pageRva + e.pageOffset) else none

/-- The number of bytes of the block. -/
def byteSize (b : RelocBlock) : Nat :=
  headerSize + RelocEntry.byteSize * b.entries.length

/-- The bytes of the block. -/
def encode (b : RelocBlock) : List UInt8 :=
  toLE 4 b.pageRva ++ toLE 4 b.byteSize
    ++ b.entries.flatMap fun e => toLE RelocEntry.byteSize e.toWord

/-- The size of the block at the front of a list of bytes, if it is well formed: the list
holds the header of the block, and the size that it declares is even, at least that of
the header, and at most that of the list. -/
def sizeAtFront? (bytes : List UInt8) : Option Nat :=
  if bytes.length < headerSize then none
  else
    let size := field bytes 4 4
    if size < headerSize ∨ size % RelocEntry.byteSize ≠ 0 ∨ bytes.length < size then none
    else some size

theorem of_sizeAtFront? {bytes : List UInt8} {size : Nat}
    (h : sizeAtFront? bytes = some size) :
  headerSize ≤ size ∧ size % RelocEntry.byteSize = 0 ∧ size ≤ bytes.length
    ∧ size = field bytes 4 4
  := by
  simp only [sizeAtFront?] at h
  split at h
  · simp at h
  · split at h
    · simp at h
    · cases h
      simp only [not_or, Nat.not_lt, ne_eq, Decidable.not_not] at *
      simp [*]

end RelocBlock

/-- The blocks read from a table, and whether the table has been read to its end. -/
structure RelocWalk where
  blocks : List RelocBlock
  complete : Bool
  deriving Repr, DecidableEq

namespace RelocWalk

/-- The blocks at the front of a list of bytes that begins at the file offset `offset`.
The walk ends at the first block that is not well formed. -/
def ofBytes (offset : Nat) (bytes : List UInt8) : RelocWalk :=
  match _h : RelocBlock.sizeAtFront? bytes with
  | none => ⟨[], bytes.isEmpty⟩
  | some size =>
    let block : RelocBlock := {
      offset := offset % space32
      pageRva := field bytes 0 4
      entries := RelocEntry.listOfBytes ((bytes.take size).drop RelocBlock.headerSize)
    }
    let rest := ofBytes (offset + size) (bytes.drop size)
    ⟨block :: rest.blocks, rest.complete⟩
termination_by bytes.length
decreasing_by
  have := RelocBlock.of_sizeAtFront? _h
  simp only [RelocBlock.headerSize, List.length_drop] at *
  omega

/-- The blocks in a region of a buffer.  A region that does not lie inside the buffer has
none, and they are not complete. -/
def ofRegion (data : Bytes) (region : Region) : RelocWalk :=
  match region.slice? data with
  | none => ⟨[], false⟩
  | some bytes => ofBytes region.offset bytes

end RelocWalk

end ImageRefs
