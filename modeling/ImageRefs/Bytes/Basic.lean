import ImageRefs.Bytes.LittleEndian

/-!
# Byte buffers

A buffer is an array of bytes.  Every read and write names the offset and the width of a
field; one that does not lie inside the buffer has no result, and a write that has none
leaves the buffer as it was.  `slice?_eq_some_iff` says what a slice is in terms of the
list of bytes, and `getElem?_overwrite` says what a write does to each byte.
-/

namespace ImageRefs

/-- A buffer of bytes. -/
abbrev Bytes := Array UInt8

/-- The number of offsets a 32-bit field can hold. -/
def space32 : Nat := 0x100000000

/-- The number of offsets and sizes that can be told apart. -/
def space64 : Nat := 0x10000000000000000

/-- The little-endian number in the `width` bytes of `bytes` from `offset` on. -/
def field (bytes : List UInt8) (offset width : Nat) : Nat :=
  ofLE ((bytes.drop offset).take width)

/-- A field of `width` bytes is one of the values that `width` bytes can hold. -/
theorem field_lt (bytes : List UInt8) (offset width : Nat) :
  field bytes offset width < byteCapacity width
  :=
  Nat.lt_of_lt_of_le (ofLE_lt _) (byteCapacity_le (List.length_take_le _ _))

theorem byteCapacity_four : byteCapacity 4 = space32 := rfl

namespace Bytes

/-- The `size` bytes from `offset` on, if the buffer holds all of them. -/
def slice? (data : Bytes) (offset size : Nat) : Option (List UInt8) :=
  if offset + size ≤ data.size then
    some (data.extract offset (offset + size)).toList
  else
    none

/-- The little-endian number stored in the `width` bytes from `offset` on. -/
def read? (data : Bytes) (width offset : Nat) : Option Nat :=
  (data.slice? offset width).map ofLE

/-- The buffer with the bytes of a list stored from `offset` on; bytes that would lie past
the end of the buffer are dropped. -/
def overwrite (data : Bytes) (offset : Nat) : List UInt8 → Bytes
  | [] => data
  | b :: bs => overwrite (data.setIfInBounds offset b) (offset + 1) bs

/-- The buffer with the low `width` bytes of `value` stored from `offset` on, if the field
lies inside the buffer. -/
def write? (data : Bytes) (width offset value : Nat) : Option Bytes :=
  if offset + width ≤ data.size then
    some (data.overwrite offset (toLE width value))
  else
    none

/-- The buffer after a write that is skipped when its field lies outside the buffer. -/
def write (data : Bytes) (width offset value : Nat) : Bytes :=
  (data.write? width offset value).getD data

/-- The positions at which two buffers hold different bytes, ascending, each with the byte
of the first and of the second buffer.  Positions that only one of them has are left out. -/
def changes (before after : Bytes) : List (Nat × UInt8 × UInt8) :=
  ((before.toList.zip after.toList).zipIdx.filter fun p => p.1.1 != p.1.2).map
    fun p => (p.2, p.1)

/-! ### Slices and reads -/

theorem slice?_eq_some_iff {data : Bytes} {offset size : Nat} {bs : List UInt8} :
  data.slice? offset size = some bs
    ↔ offset + size ≤ data.size ∧ bs = (data.toList.drop offset).take size
  := by
  unfold slice?
  split
  · simp [Array.toList_extract, List.extract_eq_take_drop, *, eq_comm]
  · simp [*]

/-- A slice exists exactly when its end lies inside the buffer. -/
theorem isSome_slice? (data : Bytes) (offset size : Nat) :
  (data.slice? offset size).isSome = decide (offset + size ≤ data.size)
  := by
  unfold slice?
  split <;> simp [*]

/-- A slice has the size that was asked for. -/
theorem length_of_slice? {data : Bytes} {offset size : Nat} {bs : List UInt8}
    (h : data.slice? offset size = some bs) :
  bs.length = size
  := by
  obtain ⟨fits, rfl⟩ := slice?_eq_some_iff.mp h
  simp only [List.length_take, List.length_drop, Array.length_toList]
  omega

/-- A number read from `width` bytes is one of the values that they can hold. -/
theorem lt_of_read? {data : Bytes} {width offset value : Nat}
    (h : data.read? width offset = some value) :
  value < byteCapacity width
  := by
  obtain ⟨bs, hbs, rfl⟩ := Option.map_eq_some_iff.mp h
  exact length_of_slice? hbs ▸ ofLE_lt bs

/-! ### Writes -/

@[simp]
theorem size_overwrite (data : Bytes) (offset : Nat) (bs : List UInt8) :
  (data.overwrite offset bs).size = data.size
  := by
  induction bs generalizing data offset with
  | nil => rfl
  | cons b bs ih => simp [overwrite, ih]

/-- Overwriting stores each byte of the list at its place and keeps all others. -/
theorem getElem?_overwrite (data : Bytes) (offset : Nat) (bs : List UInt8) (i : Nat) :
  (data.overwrite offset bs)[i]?
    = if offset ≤ i ∧ i < offset + bs.length ∧ i < data.size then bs[i - offset]?
      else data[i]?
  := by
  induction bs generalizing data offset with
  | nil => simp [overwrite, show ¬ (offset ≤ i ∧ i < offset ∧ i < data.size) by omega]
  | cons b bs ih =>
    rw [overwrite, ih, Array.size_setIfInBounds, Array.getElem?_setIfInBounds]
    by_cases here : offset = i
    · subst here
      have past : ¬ (offset + 1 ≤ offset) := by omega
      by_cases inside : offset < data.size
      · simp [past, inside]
      · simp [inside]
    · by_cases window : offset + 1 ≤ i ∧ i < offset + 1 + bs.length ∧ i < data.size
      · have step : i - offset = i - (offset + 1) + 1 := by omega
        have wider : offset ≤ i ∧ i < offset + (b :: bs).length ∧ i < data.size := by
          simp only [List.length_cons]
          omega
        rw [if_pos window, if_pos wider, step, List.getElem?_cons_succ]
      · have narrower : ¬ (offset ≤ i ∧ i < offset + (b :: bs).length ∧ i < data.size) := by
          simp only [List.length_cons]
          omega
        rw [if_neg window, if_neg narrower, if_neg here]

@[simp]
theorem size_write (data : Bytes) (width offset value : Nat) :
  (data.write width offset value).size = data.size
  := by
  unfold write write?
  split <;> simp

end Bytes

end ImageRefs
