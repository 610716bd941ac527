import ImageRefs.Bytes.Basic
import ImageRefs.Image.Error

/-!
# The bytes of a header

A header is read from a slice of the image that holds all of it.
-/

namespace ImageRefs

/-- The `size` bytes from `offset` on, or the error that the image ends before them.  The
end that the error reports is capped at the largest offset. -/
def Bytes.require (data : Bytes) (offset size : Nat) : Except ImageError (List UInt8) :=
  match data.slice? offset size with
  | some bytes => .ok bytes
  | none => .error (.truncated (min (offset + size) (space64 - 1)) data.size)

theorem Bytes.require_eq_ok_iff {data : Bytes} {offset size : Nat} {bytes : List UInt8} :
  data.require offset size = .ok bytes ↔ data.slice? offset size = some bytes
  := by
  unfold Bytes.require
  split <;> simp [*]

end ImageRefs
