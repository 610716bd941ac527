import ImageRefs.Bytes.Basic

/-!
# Address widths

An image addresses memory with 32 or with 64 bits.  The width fixes how many bytes an
absolute address takes in the file and modulo which number addresses are computed.
-/

namespace ImageRefs

/-- The number of bytes of a relative displacement, whatever the width of addresses. -/
def displacementWidth : Nat := 4

/-- The width of the addresses of an image. -/
inductive Width where
  | bits32
  | bits64
  deriving Repr, DecidableEq

namespace Width

/-- The number of bytes of a stored address. -/
def bytes : Width → Nat
  | .bits32 => 4
  | .bits64 => 8

/-- The number of addresses; addresses are computed modulo it. -/
def modulus : Width → Nat
  | .bits32 => space32
  | .bits64 => space64

/-- The largest address. -/
def mask (w : Width) : Nat :=
  w.modulus - 1

/-- The address of this width that a number becomes when its high bits are dropped. -/
def truncate (w : Width) (value : Nat) : Nat :=
  value % w.modulus

/-- The addresses are the values that the bytes of a stored address can hold. -/
theorem byteCapacity_bytes (w : Width) :
  byteCapacity w.bytes = w.modulus
  := by
  cases w <;> rfl

theorem modulus_pos (w : Width) :
  0 < w.modulus
  := by
  cases w <;> decide

theorem truncate_lt (w : Width) (value : Nat) :
  w.truncate value < w.modulus
  := Nat.mod_lt _ w.modulus_pos

end Width

end ImageRefs
