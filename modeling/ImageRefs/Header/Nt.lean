import ImageRefs.Header.Coff
import ImageRefs.Header.Directory
import ImageRefs.Header.Dos
import ImageRefs.Header.Optional

/-!
# The portable executable headers

At the offset that the DOS header gives stand the signature `PE`, the COFF header and the
optional header with the data directories; the section table follows them.  `probeMagic`
looks at the signatures and the magic number only.
-/

namespace ImageRefs

/-- The signature `PE`, followed by two zero bytes. -/
def peSignature : List UInt8 := [0x50, 0x45, 0, 0]

/-- The size of the signature. -/
def peSignatureSize : Nat := 4

/-- How far behind the signature the optional header begins. -/
def optionalOffset : Nat := peSignatureSize + coffHeaderSize

/-- The headers from the signature `PE` on, and where the section table begins. -/
structure NtHeaders where
  coff : CoffHeader
  optional : OptionalHeader
  directories : List DataDirectory
  sectionTableOffset : Nat
  deriving Repr, DecidableEq

namespace NtHeaders

/-- The headers at an offset of the image. -/
def read (data : Bytes) (offset : Nat) : Except ImageError NtHeaders := do
  let signature ← data.require offset peSignatureSize
  if signature = peSignature then
    let coff ← CoffHeader.read data (offset + peSignatureSize)
    let optional ← OptionalHeader.read data (offset + optionalOffset) coff.optionalSize
    let fixed := optional.width.fixedSize
    let capacity := (coff.optionalSize - fixed) / DataDirectory.byteSize
    if capacity < optional.directoryCount then
      .error (.tooManyDirectories optional.directoryCount capacity)
    else
      let directories ←
        DataDirectory.read data (offset + optionalOffset + fixed) optional.directoryCount
      .ok ⟨coff, optional, directories, offset + optionalOffset + coff.optionalSize⟩
  else
    .error .peSignature

/-- The directory at an index, if it is there and names a table. -/
def directory? (h : NtHeaders) (index : Nat) : Option DataDirectory :=
  h.directories[index]?.filter (·.isPresent)

end NtHeaders

/-- The magic number of the optional header, if both signatures are there and, for a magic
number of a known width, the image holds the fixed part of the optional header. -/
def probeMagic (data : Bytes) : Option Nat := do
  let dos ← data.slice? 0 dosHeaderSize
  guard (field dos 0 2 = dosSignature)
  let offset := field dos ntOffsetOffset 4
  let signature ← data.slice? offset peSignatureSize
  guard (signature = peSignature)
  let magic ← data.read? 2 (offset + optionalOffset)
  match Width.ofMagic? magic with
  | none => some magic
  | some width =>
    (data.slice? (offset + optionalOffset) width.fixedSize).map fun _ => magic

end ImageRefs
