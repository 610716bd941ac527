import ImageRefs.Branch.Table
import ImageRefs.Proofs.Image.Parsed
import ImageRefs.Proofs.Reference.Word

/-!
# References written back unchanged

The references that are read from an image are written back into a copy of it without a
change (`writeAll_references`): each of them has its word stored in its field, and a copy
that is cut off holds the same word in the field or does not hold the field at all.
-/

namespace ImageRefs

/-- Two buffers hold the same bytes at all offsets that both of them have. -/
def Bytes.Agree (a b : Bytes) : Prop :=
  ∀ i, i < a.size → i < b.size → a[i]? = b[i]?

/-- Buffers that agree hold the same number in a field that both of them have. -/
theorem Bytes.Agree.read?_eq {a b : Bytes} (agree : a.Agree b) {width offset v w : Nat}
    (ha : a.read? width offset = some v) (hb : b.read? width offset = some w) :
  v = w
  := by
  have fitsA := fits_of_read? ha
  have fitsB := fits_of_read? hb
  have same : a.read? width offset = b.read? width offset := by
    apply read?_congr
    · exact iff_of_true fitsA fitsB
    · intro i _ high
      apply agree <;> omega
  rw [ha, hb] at same
  apply Option.some.inj same

namespace AddressSpace

variable {a : AddressSpace} {kind : ReferenceKind} {data copy : Bytes}

/-- Writing a reference back into a buffer that agrees with the one it was read from
changes nothing. -/
theorem write_of_read? (based : a.Based) (agree : copy.Agree data) {location : Nat}
    {r : Reference} (h : a.read? kind data location = some r) :
  a.write kind copy r = copy
  := by
  obtain ⟨rfl, word, encoded, stored⟩ := stored_of_read? based h
  rw [write, encoded]
  apply Bytes.write_eq_self
  intro v holds
  rw [agree.read?_eq holds stored, Nat.mod_eq_of_lt (word_lt encoded)]

/-- Writing back all references that are read at a list of locations changes nothing. -/
theorem writeAll_readAll (based : a.Based) (agree : copy.Agree data) (locations : List Nat) :
  a.writeAll kind copy (a.readAll kind data locations) = copy
  := by
  rw [writeAll, readAll]
  induction locations with
  | nil => rfl
  | cons location locations ih =>
    rw [List.filterMap_cons]
    split
    · apply ih
    · next r h =>
      rw [List.foldl_cons, write_of_read? based agree h]
      apply ih

end AddressSpace

namespace Image

/-- The base of an image is an address of its width. -/
theorem based_addressSpace (image : Image) :
  image.addressSpace.Based
  := AddressSpace.based_ofBase _ _ _

/-- Writing the references of an image, of both kinds and in either order of the kinds, back
into a copy of it leaves the copy as it was, however long the copy is. -/
theorem writeAll_references (image : Image) (low high : Nat) (copy : Bytes)
    (agree : copy.Agree image.bytes) :
  image.addressSpace.writeAll .rel32
      (image.addressSpace.writeAll .reloc copy (image.references .reloc low high))
      (image.references .rel32 low high) = copy
    ∧ image.addressSpace.writeAll .reloc
      (image.addressSpace.writeAll .rel32 copy (image.references .rel32 low high))
      (image.references .reloc low high) = copy
  := by
  have unchanged (kind : ReferenceKind) :
      image.addressSpace.writeAll kind copy (image.references kind low high) = copy := by
    apply AddressSpace.writeAll_readAll image.based_addressSpace agree
  constructor
  · rw [unchanged, unchanged]
  · rw [unchanged, unchanged]

/-- The copy may end inside a field: the sample holds a displacement at `0x144`. -/
theorem writeAll_references_cut :
  Bytes.Agree (sampleBytes.extract 0 0x146) sample.bytes
    ∧ sample.addressSpace.writeAll .rel32
      (sample.addressSpace.writeAll .reloc (sampleBytes.extract 0 0x146)
        (sample.references .reloc 0 (space32 - 1)))
      (sample.references .rel32 0 (space32 - 1)) = sampleBytes.extract 0 0x146
  := by
  have agree : Bytes.Agree (sampleBytes.extract 0 0x146) sample.bytes := by
    intro i inside _
    rw [Array.size_extract] at inside
    rw [Array.getElem?_extract, if_pos (by omega), Nat.zero_add]
    rfl
  use agree
  apply (writeAll_references sample 0 (space32 - 1) _ agree).1

end Image

end ImageRefs
