import ImageRefs.Address.LoadMap
import ImageRefs.Text.Hex

/-!
# Why an image is refused

Each way in which the bytes of an image can fail to be a portable executable is one
constructor of `ImageError`, with the numbers that its text reports.  So is the overflow of a
sum of offsets, which stops a reader and is no report of its own.
-/

namespace ImageRefs

/-- Why an image is refused. -/
inductive ImageError where
  /-- The image does not begin with `MZ`. -/
  | dosSignature
  /-- There is no `PE` signature where the DOS header points. -/
  | peSignature
  /-- The optional header has an unknown magic number, or that of the other width. -/
  | wrongMagic (magic : Nat)
  /-- A header needs `expected` bytes of an image of `actual` bytes. -/
  | truncated (expected actual : Nat)
  /-- The end of a header has more than 64 bits, and the addition that computes it stops the
  reader. -/
  | overflow
  /-- The optional header is declared with fewer bytes than its fixed part has. -/
  | optionalTooSmall (size : Nat)
  /-- More data directories are declared than fit in the optional header. -/
  | tooManyDirectories (count capacity : Nat)
  /-- The file bytes of a section do not lie inside the image. -/
  | sectionOutsideImage (index offset size : Nat)
  /-- The RVAs of a section pass the declared size of the loaded image. -/
  | sectionOutsideMemory (index rva size bound : Nat)
  /-- The image has more bytes than are allowed. -/
  | tooLarge (size limit : Nat)
  /-- The sections give mappings that no load map can hold. -/
  | mapping (error : MappingError)
  deriving Repr, DecidableEq

/-- The text of the error. -/
def ImageError.message : ImageError → String
  | .dosSignature => "Invalid DOS signature"
  | .peSignature => "Invalid PE signature"
  | .wrongMagic magic => "Invalid optional header magic: 0x" ++ paddedHex 4 magic
  | .truncated expected actual =>
    s!"Truncated header: expected {expected} bytes, got {actual}"
  | .overflow => "attempt to add with overflow"
  | .optionalTooSmall size => s!"Optional header too small: {size} bytes"
  | .tooManyDirectories count capacity =>
    s!"Data directory count {count} exceeds optional header capacity {capacity}"
  | .sectionOutsideImage index offset size =>
    s!"Section {index} raw data " ++ hexLiteral offset ++ "+" ++ hexLiteral size
      ++ " lies outside the image"
  | .sectionOutsideMemory index rva size bound =>
    s!"Section {index} RVA range " ++ hexLiteral rva ++ "+" ++ hexLiteral size
      ++ " exceeds SizeOfImage " ++ hexLiteral bound
  | .tooLarge size limit => s!"Image of {size} bytes exceeds limit of {limit} bytes"
  | .mapping error => "Address translation setup failed: " ++ error.message

end ImageRefs
