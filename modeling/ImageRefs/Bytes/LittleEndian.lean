/-!
# Little-endian numbers

`ofLE` reads a list of bytes as a number, the first byte being the least significant, and
`toLE width value` writes the low `width` bytes of a number in the same order.  The two
are inverse to each other: `toLE_ofLE` holds without a condition, and `ofLE_toLE` says
that writing in `width` bytes keeps a number modulo the number of values of `width` bytes.
-/

namespace ImageRefs

/-- The number of values that `width` bytes can hold. -/
def byteCapacity : (width : Nat) → Nat
  | 0 => 1
  | width + 1 => 256 * byteCapacity width

/-- The number a list of bytes denotes, least significant byte first. -/
def ofLE : List UInt8 → Nat
  | [] => 0
  | b :: bs => b.toNat + 256 * ofLE bs

/-- The low `width` bytes of a number, least significant byte first. -/
def toLE : (width : Nat) → (value : Nat) → List UInt8
  | 0, _ => []
  | width + 1, value => UInt8.ofNat value :: toLE width (value / 256)

@[simp]
theorem length_toLE (width value : Nat) :
  (toLE width value).length = width
  := by
  induction width generalizing value with
  | zero => rfl
  | succ width ih => simp [toLE, ih]

/-- More bytes can hold more values. -/
theorem byteCapacity_le {m n : Nat} (h : m ≤ n) :
  byteCapacity m ≤ byteCapacity n
  := by
  induction h with
  | refl => exact Nat.le_refl _
  | step h ih =>
    rw [byteCapacity]
    omega

theorem ofLE_lt (bs : List UInt8) :
  ofLE bs < byteCapacity bs.length
  := by
  induction bs with
  | nil => decide
  | cons b bs ih =>
    have hb : b.toNat < 256 := b.toNat_lt
    rw [ofLE, List.length_cons, byteCapacity]
    omega

/-- Writing a number in `width` bytes keeps it modulo the number of values they hold. -/
theorem ofLE_toLE (width value : Nat) :
  ofLE (toLE width value) = value % byteCapacity width
  := by
  induction width generalizing value with
  | zero => simp [toLE, ofLE, byteCapacity, Nat.mod_one]
  | succ width ih =>
    have byte : (UInt8.ofNat value).toNat = value % 256 := by simp
    rw [toLE, ofLE, ih, byte, byteCapacity, Nat.mod_mul]

/-- A list of bytes is determined by its length and the number it denotes. -/
theorem toLE_ofLE (bs : List UInt8) :
  toLE bs.length (ofLE bs) = bs
  := by
  induction bs with
  | nil => rfl
  | cons b bs ih =>
    have hb : b.toNat < 256 := b.toNat_lt
    have hdiv : (b.toNat + 256 * ofLE bs) / 256 = ofLE bs := by omega
    simp only [List.length_cons, toLE, ofLE, hdiv, ih, List.cons.injEq, and_true]
    apply UInt8.toNat_inj.mp
    simp

end ImageRefs
