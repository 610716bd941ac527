import ImageRefs.Header.Slice

/-!
# The COFF header

The COFF header has 20 bytes and follows the signature `PE`.  It tells how many section
headers there are and how many bytes the optional header takes.
-/

namespace ImageRefs

/-- The machines an image can be made for. -/
inductive Machine where
  | unknown
  | i386
  | x86_64
  | other (code : Nat)
  deriving Repr, DecidableEq

/-- The machine with a given code. -/
def Machine.ofCode : Nat → Machine
  | 0 => .unknown
  | 0x14C => .i386
  | 0x8664 => .x86_64
  | code => .other code

/-- The size of the COFF header. -/
def coffHeaderSize : Nat := 20

/-- The fields of the COFF header. -/
structure CoffHeader where
  machine : Machine
  sectionCount : Nat
  timestamp : Nat
  optionalSize : Nat
  characteristics : Nat
  deriving Repr, DecidableEq

namespace CoffHeader

/-- The header whose bytes are given. -/
def ofBytes (bytes : List UInt8) : CoffHeader where
  machine := Machine.ofCode (field bytes 0 2)
  sectionCount := field bytes 2 2
  timestamp := field bytes 4 4
  optionalSize := field bytes 16 2
  characteristics := field bytes 18 2

/-- The header at an offset of the image. -/
def read (data : Bytes) (offset : Nat) : Except ImageError CoffHeader :=
  (data.require offset coffHeaderSize).map ofBytes

end CoffHeader

end ImageRefs
