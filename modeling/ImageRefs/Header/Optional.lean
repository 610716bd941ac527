import ImageRefs.Header.Slice
import ImageRefs.Width

/-!
# The optional header

The optional header begins with a magic number that tells the width of the image.  A part
of fixed size, which depends on the width, comes before the data directories.  All fields
but the image base lie at the same places in both widths.
-/

namespace ImageRefs

namespace Width

/-- The magic number of optional headers of this width. -/
def magic : Width → Nat
  | .bits32 => 0x10B
  | .bits64 => 0x20B

/-- The size of the part of the optional header before the data directories. -/
def fixedSize : Width → Nat
  | .bits32 => 96
  | .bits64 => 112

/-- The width with a given magic number. -/
def ofMagic? (magic : Nat) : Option Width :=
  if magic = bits32.magic then some .bits32
  else if magic = bits64.magic then some .bits64
  else none

theorem ofMagic?_eq_some_iff {magic : Nat} {w : Width} :
  ofMagic? magic = some w ↔ magic = w.magic
  := by
  unfold ofMagic?
  cases w <;> grind [Width.magic]

/-- The fields that both widths have lie in the fixed part. -/
theorem le_fixedSize (w : Width) :
  96 ≤ w.fixedSize
  := by
  cases w <;> decide

end Width

/-- The fields of the optional header. -/
structure OptionalHeader where
  width : Width
  entryPoint : Nat
  imageBase : Nat
  sectionAlignment : Nat
  fileAlignment : Nat
  sizeOfImage : Nat
  sizeOfHeaders : Nat
  directoryCount : Nat
  deriving Repr, DecidableEq

namespace OptionalHeader

/-- The header of a given width whose bytes are given. -/
def ofBytes (width : Width) (bytes : List UInt8) : OptionalHeader where
  width := width
  entryPoint := field bytes 16 4
  imageBase :=
    match width with
    | .bits32 => field bytes 28 4
    | .bits64 => field bytes 24 8
  sectionAlignment := field bytes 32 4
  fileAlignment := field bytes 36 4
  sizeOfImage := field bytes 56 4
  sizeOfHeaders := field bytes 60 4
  directoryCount := field bytes (width.fixedSize - 4) 4

/-- The header at an offset of the image that is declared with `size` bytes, all of which
must lie inside the image. -/
def read (data : Bytes) (offset size : Nat) : Except ImageError OptionalHeader :=
  if size < 2 then
    .error (.optionalTooSmall size)
  else do
    let bytes ← data.require offset size
    match Width.ofMagic? (field bytes 0 2) with
    | none => .error (.wrongMagic (field bytes 0 2))
    | some width =>
      if size < width.fixedSize then
        .error (.optionalTooSmall size)
      else
        .ok (ofBytes width bytes)

end OptionalHeader

end ImageRefs
