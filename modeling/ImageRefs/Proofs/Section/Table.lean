import ImageRefs.Section.Table
import ImageRefs.Proofs.Header.Read

/-!
# Reading the section table

* The sections of a table are read from pieces of equal size (`Section.listOfBytes_eq_map`).
* A list of sections has a layout exactly if the bytes of each lie inside the file and its RVAs
  below the declared size (`Layout.ofSections_eq_ok_iff`).
* A layout of an image whose offsets and RVAs have 32 bits has a load map
  (`Layout.ofMappings_of_ofSections`).
-/

namespace ImageRefs

/-- No element of a list has a fault exactly if each of them is good, when that is what it
takes to have none at any place. -/
theorem findSome?_zipIdx_eq_none_iff {α β : Type} {fault : α → Nat → Option β}
    {good : α → Prop} (faultless : ∀ x i, fault x i = none ↔ good x) (list : List α) :
  (list.zipIdx.findSome? fun p => fault p.1 p.2) = none ↔ ∀ x ∈ list, good x
  := by
  simp only [List.findSome?_eq_none_iff, faultless, Prod.forall]
  constructor
  · intro h x hx
    obtain ⟨i, hi, rfl⟩ := List.mem_iff_getElem.mp hx
    apply h _ i
    apply List.mem_zipIdx_iff_getElem?.mpr
    apply List.getElem?_eq_getElem
  · intro h x i hx
    apply h
    apply List.mem_of_getElem? (List.mem_zipIdx_iff_getElem?.mp hx)

namespace Section

/-- The sections of a table, each read from its piece of the bytes. -/
theorem listOfBytes_eq_map (count : Nat) (bytes : List UInt8) :
  listOfBytes count bytes
    = (List.range count).map fun i =>
      ofBytes ((bytes.drop (i * sectionHeaderSize)).take sectionHeaderSize)
  := by
  induction count generalizing bytes with
  | zero => rfl
  | succ count ih =>
    rw [listOfBytes, ih, List.range_succ_eq_map, List.map_cons, List.map_map, Nat.zero_mul,
      List.drop_zero]
    congr 1
    apply List.map_congr_left
    intro i _
    simp only [Function.comp_apply, List.drop_drop, Nat.succ_mul, Nat.add_comm]

theorem readTable_eq_ok_iff {data : Bytes} {offset count : Nat} {sections : List Section} :
  readTable data offset count = .ok sections
    ↔ ∃ bytes, data.slice? offset (count * sectionHeaderSize) = some bytes
      ∧ listOfBytes count bytes = sections
  := by
  simp only [readTable, map_eq_ok_iff, Bytes.require_eq_ok_iff]

/-- A section of a table is read from its place in the image. -/
theorem forall_mem_of_readTable {data : Bytes} {offset count : Nat} {sections : List Section}
    (h : readTable data offset count = .ok sections) (P : Section → Prop) :
  (∀ s ∈ sections, P s)
    ↔ ∀ i < count, P (ofBytes
      ((data.toList.drop (offset + i * sectionHeaderSize)).take sectionHeaderSize))
  := by
  obtain ⟨bytes, table, rfl⟩ := readTable_eq_ok_iff.mp h
  obtain ⟨-, rfl⟩ := Bytes.slice?_eq_some_iff.mp table
  simp only [listOfBytes_eq_map, List.forall_mem_map, List.mem_range]
  apply forall₂_congr
  intro i hi
  have inside : (i + 1) * sectionHeaderSize ≤ count * sectionHeaderSize :=
    Nat.mul_le_mul_right _ hi
  rw [Nat.succ_mul] at inside
  rw [List.drop_take, List.take_take, List.drop_drop, Nat.min_eq_left (by omega)]

theorem isDamage_of_readTable {data : Bytes} {offset count : Nat} {error : ImageError}
    (h : readTable data offset count = .error error) :
  error.isDamage = true
  := Bytes.isDamage_of_require (map_eq_error_iff.mp h)

end Section

namespace LoadMap

/-- A list of mappings has a load map exactly if the ends of all ranges have 32 bits. -/
theorem ofMappings_eq_ok_iff {mappings : List Mapping} {loadMap : LoadMap} :
  ofMappings mappings = .ok loadMap
    ↔ (∀ m ∈ mappings,
        m.offsetBegin + m.offsetSize < space32 ∧ m.rvaBegin + m.rvaSize < space32)
      ∧ loadMap = ⟨mappings⟩
  := by
  have faultless (m : Mapping) (i : Nat) : m.fault? i = none
      ↔ m.offsetBegin + m.offsetSize < space32 ∧ m.rvaBegin + m.rvaSize < space32 := by
    rw [Mapping.fault?]
    split
    · simp only [reduceCtorEq, false_iff]
      omega
    · split
      · simp only [reduceCtorEq, false_iff]
        omega
      · simp only [true_iff]
        omega
  rw [← findSome?_zipIdx_eq_none_iff faultless, ofMappings]
  split
  · next fault h => simp [h]
  · next h => simp [h, eq_comm]

end LoadMap

/-- A section lies outside the file or outside the loaded image. -/
def ImageError.isMisplaced : ImageError → Bool
  | .sectionOutsideImage _ _ _ | .sectionOutsideMemory _ _ _ _ => true
  | _ => false

namespace Layout

variable {sections : List Section} {imageSize sizeOfImage : Nat} {layout : Layout}

/-- No section has more file bytes than the bound of the layout. -/
theorem rawEnd_le_boundOf {s : Section} (h : s ∈ sections) :
  s.rawEnd ≤ boundOf sections
  := by
  induction sections with
  | nil => cases h
  | cons t ts ih =>
    rw [boundOf, List.map_cons, List.foldr_cons]
    rcases List.mem_cons.mp h with rfl | tail
    · apply Nat.le_max_left
    · apply Nat.le_trans (ih tail) (Nat.le_max_right _ _)

/-- The bound of a layout is the least one. -/
theorem boundOf_le {bound : Nat} (h : ∀ s ∈ sections, s.rawEnd ≤ bound) :
  boundOf sections ≤ bound
  := by
  induction sections with
  | nil => apply Nat.zero_le
  | cons t ts ih =>
    rw [List.forall_mem_cons] at h
    rw [boundOf, List.map_cons, List.foldr_cons]
    apply Nat.max_le.mpr
    use h.1
    apply ih h.2

/-- A list of sections has a layout exactly if the bytes of each lie inside the file and its
RVAs below the declared size. -/
theorem ofSections_eq_ok_iff :
  ofSections sections imageSize sizeOfImage = .ok layout
    ↔ (∀ s ∈ sections, s.rawEnd ≤ imageSize ∧ s.virtualAddress + s.virtualSize ≤ sizeOfImage)
      ∧ layout = ⟨sections.map Section.mapping, boundOf sections⟩
  := by
  have faultless (s : Section) (i : Nat) : s.fault? i imageSize sizeOfImage = none
      ↔ s.rawEnd ≤ imageSize ∧ s.virtualAddress + s.virtualSize ≤ sizeOfImage :=
    Section.fault?_eq_none_iff
  rw [← findSome?_zipIdx_eq_none_iff faultless, ofSections]
  split
  · next fault h => simp [h]
  · next h => simp [h, eq_comm]

/-- Sections without a layout lie outside the file or outside the loaded image. -/
theorem isMisplaced_of_ofSections {error : ImageError}
    (h : ofSections sections imageSize sizeOfImage = .error error) :
  error.isMisplaced = true
  := by
  rw [ofSections] at h
  split at h
  · next fault found =>
    cases h
    obtain ⟨⟨s, index⟩, -, h⟩ := List.exists_of_findSome?_eq_some found
    dsimp only [Section.fault?] at h
    split at h
    · cases h
      rfl
    · split at h
      · cases h
        rfl
      · cases h
  · cases h

/-- A layout has a load map if all offsets of the file and all RVAs have 32 bits. -/
theorem ofMappings_of_ofSections (h : ofSections sections imageSize sizeOfImage = .ok layout)
    (offsets : imageSize < space32) (rvas : sizeOfImage < space32) :
  LoadMap.ofMappings layout.mappings = .ok ⟨layout.mappings⟩
  := by
  obtain ⟨inside, rfl⟩ := ofSections_eq_ok_iff.mp h
  apply LoadMap.ofMappings_eq_ok_iff.mpr
  refine ⟨?_, rfl⟩
  intro m hm
  obtain ⟨s, hs, rfl⟩ := List.mem_map.mp hm
  obtain ⟨raw, memory⟩ := inside s hs
  exact ⟨Nat.lt_of_le_of_lt raw offsets, Nat.lt_of_le_of_lt memory rvas⟩

end Layout

end ImageRefs
