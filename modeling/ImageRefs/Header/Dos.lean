import ImageRefs.Header.Slice

/-!
# The DOS header

An image begins with a DOS header of 64 bytes: the signature `MZ` in the first two and
the offset of the portable executable headers in the last four.
-/

namespace ImageRefs

/-- The signature `MZ`, as a little-endian number. -/
def dosSignature : Nat := 0x5A4D

/-- The size of the DOS header. -/
def dosHeaderSize : Nat := 64

/-- Where the DOS header holds the offset of the portable executable headers. -/
def ntOffsetOffset : Nat := 0x3C

/-- The two fields of the DOS header that lead to the other headers. -/
structure DosHeader where
  signature : Nat
  ntOffset : Nat
  deriving Repr, DecidableEq

/-- The DOS header of an image. -/
def DosHeader.read (data : Bytes) : Except ImageError DosHeader := do
  let bytes ← data.require 0 dosHeaderSize
  if field bytes 0 2 = dosSignature then
    .ok ⟨field bytes 0 2, field bytes ntOffsetOffset 4⟩
  else
    .error .dosSignature

end ImageRefs
