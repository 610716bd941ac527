import ImageRefs.Bytes.Region
import Mathlib.Logic.Basic
import Mathlib.Tactic.Use

/-!
# Fields of a buffer

A field is a region of a buffer that is read and written as one number.  What a field holds
depends on its bytes only (`read?_congr`).  A write into a field inside the buffer is read
back (`read?_write_self`), changes no byte apart from it (`getElem?_write_of_apart`), and
changes nothing at all if the field holds the number already (`write_eq_self`).
-/

namespace ImageRefs

/-- Two regions have no offset in common: one of them ends before the other begins. -/
def Region.Apart (r s : Region) : Prop :=
  r.offset + r.size ≤ s.offset ∨ s.offset + s.size ≤ r.offset

theorem Region.Apart.symm {r s : Region} (h : r.Apart s) :
  s.Apart r
  := Or.symm h

/-- An offset lies in a region. -/
def Region.Holds (r : Region) (i : Nat) : Prop :=
  r.offset ≤ i ∧ i < r.offset + r.size

/-- No offset lies in both regions.  A region of no offsets is disjoint from all others, even
from one around it, from which it does not lie apart. -/
def Region.Disjoint (r s : Region) : Prop :=
  ∀ i, ¬ (r.Holds i ∧ s.Holds i)

theorem Region.disjoint_iff {r s : Region} :
  r.Disjoint s ↔ r.size = 0 ∨ s.size = 0 ∨ r.Apart s
  := by
  simp only [Disjoint, Holds, Apart]
  constructor
  · intro h
    have := h (max r.offset s.offset)
    omega
  · intro h i
    omega

instance (r s : Region) : Decidable (r.Disjoint s) :=
  decidable_of_iff (r.size = 0 ∨ s.size = 0
    ∨ r.offset + r.size ≤ s.offset ∨ s.offset + s.size ≤ r.offset) Region.disjoint_iff.symm

/-- The bytes that store a number depend on it modulo the number of values they hold. -/
theorem toLE_mod (width value : Nat) :
  toLE width (value % byteCapacity width) = toLE width value
  := by
  have h := toLE_ofLE (toLE width value)
  rw [length_toLE, ofLE_toLE] at h
  apply h

/-- The bytes of a field store the number that it holds. -/
theorem toLE_field {bytes : List UInt8} {offset width : Nat}
    (inside : offset + width ≤ bytes.length) :
  toLE width (field bytes offset width) = (bytes.drop offset).take width
  := by
  have hlength : ((bytes.drop offset).take width).length = width := by
    rw [List.length_take, List.length_drop]
    omega
  have hbytes := toLE_ofLE ((bytes.drop offset).take width)
  rw [hlength] at hbytes
  apply hbytes

/-- A field of a part of a list is a field of the list. -/
theorem field_take_drop (bytes : List UInt8) (offset : Nat) {size place width : Nat}
    (inside : place + width ≤ size) :
  field ((bytes.drop offset).take size) place width = field bytes (offset + place) width
  := by
  rw [field, field, List.drop_take, List.take_take, List.drop_drop, Nat.min_eq_left (by omega)]

namespace Bytes

/-! ### Reading -/

/-- Buffers that hold the same bytes in a range give the same slice of it. -/
theorem slice?_congr {a b : Bytes} {offset size : Nat}
    (fits : offset + size ≤ a.size ↔ offset + size ≤ b.size)
    (same : ∀ i, offset ≤ i → i < offset + size → a[i]? = b[i]?) :
  a.slice? offset size = b.slice? offset size
  := by
  rw [slice?, slice?]
  by_cases h : offset + size ≤ a.size
  · rw [if_pos h, if_pos (fits.mp h)]
    congr 1
    apply List.ext_getElem?
    intro i
    simp only [Array.getElem?_toList, Array.getElem?_extract]
    have ha : min (offset + size) a.size = offset + size := by omega
    have hb : min (offset + size) b.size = offset + size := by omega
    rw [ha, hb]
    split
    · apply same <;> omega
    · rfl
  · rw [if_neg h, if_neg (mt fits.mpr h)]

/-- Buffers that hold the same bytes in a field hold the same number in it. -/
theorem read?_congr {a b : Bytes} {width offset : Nat}
    (fits : offset + width ≤ a.size ↔ offset + width ≤ b.size)
    (same : ∀ i, offset ≤ i → i < offset + width → a[i]? = b[i]?) :
  a.read? width offset = b.read? width offset
  := by
  rw [read?, read?, slice?_congr fits same]

/-- There is a slice wherever it lies inside the buffer. -/
theorem exists_slice? {data : Bytes} {offset size : Nat} (fits : offset + size ≤ data.size) :
  ∃ bs, data.slice? offset size = some bs
  := by
  rw [← Option.isSome_iff_exists, isSome_slice?, decide_eq_true_iff]
  apply fits

/-- A number can be read from a field exactly if the field lies inside the buffer. -/
theorem read?_eq_some_iff {data : Bytes} {width offset value : Nat} :
  data.read? width offset = some value
    ↔ offset + width ≤ data.size ∧ field data.toList offset width = value
  := by
  simp only [read?, Option.map_eq_some_iff, slice?_eq_some_iff, field]
  constructor
  · rintro ⟨_, ⟨fits, rfl⟩, rfl⟩
    use fits
  · rintro ⟨fits, rfl⟩
    use (data.toList.drop offset).take width

/-- There is a number in every field that lies inside the buffer. -/
theorem exists_read? {data : Bytes} {width offset : Nat} (fits : offset + width ≤ data.size) :
  ∃ value, data.read? width offset = some value
  := by
  use field data.toList offset width
  apply read?_eq_some_iff.mpr
  use fits

/-- There is no number past the end of a buffer. -/
theorem read?_eq_none {data : Bytes} {width offset : Nat} (cut : data.size < offset + width) :
  data.read? width offset = none
  := by
  rw [read?, slice?, if_neg (Nat.not_le.mpr cut)]
  rfl

/-- A field of a slice is a field of the buffer. -/
theorem field_of_slice? {data : Bytes} {offset size : Nat} {bs : List UInt8}
    (h : data.slice? offset size = some bs) {place width : Nat} (inside : place + width ≤ size) :
  field bs place width = field data.toList (offset + place) width
  := by
  obtain ⟨-, rfl⟩ := slice?_eq_some_iff.mp h
  apply field_take_drop _ _ inside

/-- A field that can be read lies inside the buffer. -/
theorem fits_of_read? {data : Bytes} {width offset value : Nat}
    (h : data.read? width offset = some value) :
  offset + width ≤ data.size
  := by
  obtain ⟨bs, hbs, -⟩ := Option.map_eq_some_iff.mp h
  apply (slice?_eq_some_iff.mp hbs).1

/-- The bytes of a field are those that store the number it holds. -/
theorem getElem?_of_read? {data : Bytes} {width offset value i : Nat}
    (h : data.read? width offset = some value) (low : offset ≤ i) (high : i < offset + width) :
  data[i]? = (toLE width value)[i - offset]?
  := by
  obtain ⟨bs, hbs, rfl⟩ := Option.map_eq_some_iff.mp h
  have stored := toLE_ofLE bs
  rw [length_of_slice? hbs] at stored
  obtain ⟨-, rfl⟩ := slice?_eq_some_iff.mp hbs
  rw [stored, List.getElem?_take_of_lt (by omega), List.getElem?_drop, Array.getElem?_toList]
  congr 1
  omega

/-! ### Writing -/

/-- A write stores the bytes of the number in its field and keeps all others. -/
theorem getElem?_write (data : Bytes) (width offset value i : Nat) :
  (data.write width offset value)[i]?
    = if offset + width ≤ data.size ∧ offset ≤ i ∧ i < offset + width then
        (toLE width value)[i - offset]?
      else data[i]?
  := by
  rw [write, write?]
  by_cases fits : offset + width ≤ data.size
  · rw [if_pos fits, Option.getD_some, getElem?_overwrite, length_toLE]
    congr 1
    apply propext
    omega
  · rw [if_neg fits, Option.getD_none, if_neg (mt And.left fits)]

/-- A write into a field outside the buffer is skipped. -/
theorem write_of_not_fits {data : Bytes} {width offset : Nat}
    (h : ¬ offset + width ≤ data.size) (value : Nat) :
  data.write width offset value = data
  := by
  rw [write, write?, if_neg h, Option.getD_none]

/-- What is written into a field inside the buffer is read back. -/
theorem read?_write_self {data : Bytes} {width offset : Nat} (fits : offset + width ≤ data.size)
    (value : Nat) :
  (data.write width offset value).read? width offset = some (value % byteCapacity width)
  := by
  rw [← ofLE_toLE, read?, Option.map_eq_some_iff]
  use toLE width value
  constructor
  · rw [slice?_eq_some_iff, size_write]
    use fits
    apply List.ext_getElem?
    intro i
    by_cases inside : i < width
    · calc (toLE width value)[i]?
        _ = (data.write width offset value)[offset + i]? := by
          rw [getElem?_write, if_pos (by omega), Nat.add_sub_cancel_left]
        _ = _ := by
          rw [List.getElem?_take_of_lt inside, List.getElem?_drop, Array.getElem?_toList]
    · rw [List.getElem?_take_eq_none (by omega), List.getElem?_eq_none]
      rw [length_toLE]
      omega
  · rfl

/-- A write keeps the bytes of every region apart from its field. -/
theorem getElem?_write_of_apart {data : Bytes} {width offset i : Nat} {region : Region}
    (apart : Region.Apart ⟨offset, width⟩ region) (value : Nat) (low : region.offset ≤ i)
    (high : i < region.offset + region.size) :
  (data.write width offset value)[i]? = data[i]?
  := by
  rw [getElem?_write, if_neg]
  simp only [Region.Apart] at apart
  omega

/-- Writes into fields apart from each other can be made in either order. -/
theorem write_comm {data : Bytes} {width offset width' offset' : Nat}
    (apart : Region.Apart ⟨offset, width⟩ ⟨offset', width'⟩) (value value' : Nat) :
  (data.write width offset value).write width' offset' value'
    = (data.write width' offset' value').write width offset value
  := by
  simp only [Region.Apart] at apart
  apply Array.ext_getElem?
  intro i
  simp only [getElem?_write, size_write]
  apply ite_ite_comm
  omega

/-- Writing into the beginning of a buffer is writing into the buffer. -/
theorem extract_write {data : Bytes} {width offset size : Nat} (inside : offset + width ≤ size)
    (fits : size ≤ data.size) (value : Nat) :
  (data.write width offset value).extract 0 size
    = Bytes.write (data.extract 0 size) width offset value
  := by
  have hsize : (data.extract 0 size).size = size := by
    rw [Array.size_extract, Nat.min_eq_left fits, Nat.sub_zero]
  apply Array.ext_getElem?
  intro i
  rw [getElem?_write, Array.getElem?_extract, Array.getElem?_extract, getElem?_write, hsize,
    size_write, Nat.min_eq_left fits, Nat.zero_add, Nat.sub_zero]
  by_cases here : offset ≤ i ∧ i < offset + width
  · rw [if_pos (by omega), if_pos ⟨by omega, here⟩, if_pos ⟨inside, here⟩]
  · rw [if_neg (mt And.right here), if_neg (mt And.right here)]

/-- Writing a number into a field that holds it already, or lies outside the buffer,
changes nothing. -/
theorem write_eq_self {data : Bytes} {width offset value : Nat}
    (holds : ∀ v, data.read? width offset = some v → v = value % byteCapacity width) :
  data.write width offset value = data
  := by
  by_cases fits : offset + width ≤ data.size
  · obtain ⟨v, hv⟩ := exists_read? fits
    apply Array.ext_getElem?
    intro i
    rw [getElem?_write]
    split
    · next inside =>
      rw [getElem?_of_read? hv inside.2.1 inside.2.2, holds v hv, toLE_mod]
    · rfl
  · apply write_of_not_fits fits

end Bytes

end ImageRefs
