import ImageRefs.Proofs.Section.Table

/-!
# The first fault of a list of sections

Sections are judged one after the other, and the first fault ends the judgement.

* The fault found is that of the first section that has one, with the index of this section
  (`Layout.ofSections_eq_error_iff`).
* If no section has a fault, the layout holds the mapping of each section at its index, and its
  bound is the largest end of the bytes of a section (`Layout.ofSections_exact`).
-/

namespace ImageRefs

/-- The fault found in a list is that of the first element that has one, judged at its place. -/
theorem findSome?_zipIdx_eq_some_iff {α β : Type} {fault : α → Nat → Option β} {b : β}
    (list : List α) (start : Nat) :
  ((list.zipIdx start).findSome? fun p => fault p.1 p.2) = some b
    ↔ ∃ i x, list[i]? = some x ∧ fault x (start + i) = some b
      ∧ ∀ j < i, ∀ y, list[j]? = some y → fault y (start + j) = none
  := by
  induction list generalizing start with
  | nil => simp
  | cons x list ih =>
    have next (j : Nat) : start + (j + 1) = start + 1 + j := by omega
    rw [List.zipIdx_cons, List.findSome?_cons]
    cases here : fault x start with
    | some c =>
      dsimp only
      constructor
      · intro same
        use 0, x, rfl, here.trans same
        intro j hj
        cases hj
      · rintro ⟨_ | i, y, hy, found, before⟩
        · obtain rfl := Option.some.inj hy
          exact here.symm.trans found
        · have first := before 0 (Nat.zero_lt_succ i) x rfl
          rw [Nat.add_zero, here] at first
          cases first
    | none =>
      dsimp only
      rw [ih]
      constructor
      · rintro ⟨i, y, hy, found, before⟩
        use i + 1, y, hy
        rw [next]
        use found
        rintro (_ | j) hj z hz
        · obtain rfl := Option.some.inj hz
          exact here
        · rw [next]
          apply before j (Nat.lt_of_succ_lt_succ hj) z hz
      · rintro ⟨_ | i, y, hy, found, before⟩
        · obtain rfl := Option.some.inj hy
          rw [Nat.add_zero, here] at found
          cases found
        · rw [next] at found
          use i, y, hy, found
          intro j hj z hz
          rw [← next]
          apply before (j + 1) (Nat.succ_lt_succ hj) z hz

namespace Section

/-- The fault of a section: its bytes do not lie inside the file, or they do and its RVAs pass
the declared size. -/
theorem fault?_eq_some_iff {s : Section} {index imageSize sizeOfImage : Nat}
    {error : ImageError} :
  s.fault? index imageSize sizeOfImage = some error
    ↔ imageSize < s.rawEnd ∧ error = .sectionOutsideImage index s.rawOffset s.rawSize
      ∨ s.rawEnd ≤ imageSize ∧ sizeOfImage < s.virtualAddress + s.virtualSize
        ∧ error = .sectionOutsideMemory index s.virtualAddress s.virtualSize sizeOfImage
  := by
  rw [fault?]
  split
  · next outside =>
    have inside : ¬ s.rawEnd ≤ imageSize := Nat.not_le_of_lt outside
    simp [outside, inside, eq_comm]
  · next inside =>
    have inside' := Nat.le_of_not_lt inside
    split
    · next outside => simp [inside, inside', outside, eq_comm]
    · next within => simp [inside, within]

end Section

namespace Layout

variable {sections : List Section} {imageSize sizeOfImage : Nat} {layout : Layout}

/-- The bound of a layout is the end of the bytes of a section, if there is one. -/
theorem exists_rawEnd_eq_boundOf (nonempty : sections ≠ []) :
  ∃ s ∈ sections, s.rawEnd = boundOf sections
  := by
  induction sections with
  | nil => exact absurd rfl nonempty
  | cons t ts ih =>
    rw [boundOf, List.map_cons, List.foldr_cons, ← boundOf]
    rcases Nat.le_total (boundOf ts) t.rawEnd with largest | larger
    · use t, List.mem_cons_self
      rw [Nat.max_eq_left largest]
    · rw [Nat.max_eq_right larger]
      by_cases last : ts = []
      · subst last
        use t, List.mem_cons_self
        apply Nat.le_antisymm larger (Nat.zero_le _)
      · obtain ⟨s, hs, same⟩ := ih last
        use s, List.mem_cons_of_mem _ hs

/-- Sections have no layout exactly if one of them has a fault, and this is reported of the first
of these. -/
theorem ofSections_eq_error_iff {error : ImageError} :
  ofSections sections imageSize sizeOfImage = .error error
    ↔ ∃ i s, sections[i]? = some s ∧ Section.fault? s i imageSize sizeOfImage = some error
      ∧ ∀ j < i, ∀ t, sections[j]? = some t →
        Section.fault? t j imageSize sizeOfImage = none
  := by
  have first := @findSome?_zipIdx_eq_some_iff Section ImageError
    (fun s i => s.fault? i imageSize sizeOfImage) error sections 0
  simp only [Nat.zero_add] at first
  rw [← first, ofSections]
  split
  · next fault h => simp [h]
  · next h => simp [h]

/-- The layout of a list of sections.

* There is one exactly if the bytes of each section lie inside the file and its RVAs end at the
  declared size or before.
* It holds one mapping for each section, in their order, with the ranges of the section, and the
  mapping covers the RVAs at which the section is loaded.  Its bound is the largest end of the
  bytes of a section, and zero if there is no section.  If the offsets of the file and the RVAs
  have 32 bits, it has a load map.
* If there is none, the error names the first section that breaks one of the two conditions, with
  its numbers: those of its bytes if these do not lie inside the file, whatever its RVAs are, and
  those of its RVAs otherwise. -/
theorem ofSections_exact (sections : List Section) (imageSize sizeOfImage : Nat) :
  ((∃ layout, ofSections sections imageSize sizeOfImage = .ok layout)
      ↔ ∀ s ∈ sections, s.rawOffset + s.rawSize ≤ imageSize
        ∧ s.virtualAddress + s.virtualSize ≤ sizeOfImage)
    ∧ (∀ layout, ofSections sections imageSize sizeOfImage = .ok layout →
      layout.mappings.length = sections.length
      ∧ (∀ (i : Nat) (s : Section), sections[i]? = some s →
        ∃ m, layout.mappings[i]? = some m
          ∧ m.offsetBegin = s.rawOffset ∧ m.offsetSize = s.rawSize
          ∧ m.rvaBegin = s.virtualAddress ∧ m.rvaSize = s.virtualSize
          ∧ ∀ rva, m.coversRva rva = s.containsRva rva)
      ∧ (∀ s ∈ sections, s.rawOffset + s.rawSize ≤ layout.bound)
      ∧ (sections ≠ [] → ∃ s ∈ sections, s.rawOffset + s.rawSize = layout.bound)
      ∧ (sections = [] → layout.bound = 0)
      ∧ (imageSize < space32 → sizeOfImage < space32 →
        LoadMap.ofMappings layout.mappings = .ok ⟨layout.mappings⟩))
    ∧ ∀ error, ofSections sections imageSize sizeOfImage = .error error
      ↔ ∃ (i : Nat) (s : Section), sections[i]? = some s
        ∧ (∀ j < i, ∀ t : Section, sections[j]? = some t →
          t.rawOffset + t.rawSize ≤ imageSize
          ∧ t.virtualAddress + t.virtualSize ≤ sizeOfImage)
        ∧ (imageSize < s.rawOffset + s.rawSize
            ∧ error = .sectionOutsideImage i s.rawOffset s.rawSize
          ∨ s.rawOffset + s.rawSize ≤ imageSize
            ∧ sizeOfImage < s.virtualAddress + s.virtualSize
            ∧ error = .sectionOutsideMemory i s.virtualAddress s.virtualSize sizeOfImage)
  := by
  and_intros
  · simp only [ofSections_eq_ok_iff, exists_and_left, exists_eq, and_true, Section.rawEnd]
  · intro layout h
    have loadMap := ofMappings_of_ofSections h
    obtain ⟨-, rfl⟩ := ofSections_eq_ok_iff.mp h
    and_intros
    · apply List.length_map
    · intro i s hs
      use s.mapping
      rw [List.getElem?_map, hs]
      use rfl, rfl, rfl, rfl, rfl
      apply s.coversRva_mapping
    · intro s
      apply rawEnd_le_boundOf
    · apply exists_rawEnd_eq_boundOf
    · rintro rfl
      rfl
    · apply loadMap
  · intro error
    simp only [ofSections_eq_error_iff, Section.fault?_eq_none_iff, Section.fault?_eq_some_iff]
    apply exists_congr
    intro i
    apply exists_congr
    intro s
    apply and_congr_right
    intro _
    apply and_comm

/-- The second section lies outside the file and outside the loaded image, and the third one
outside the file too: the bytes of the second one are reported. -/
theorem ofSections_exact_second :
  ofSections [⟨[], 0x100, 0x2000, 0x100, 0x500, 0⟩, ⟨[], 2, 0xFFFFFFFF, 0x200, 0x500, 0⟩,
      ⟨[], 0, 0, 1, 0x600, 0⟩] 0x600 0x3000
    = .error (.sectionOutsideImage 1 0x500 0x200)
  := by
  obtain ⟨-, -, errors⟩ := ofSections_exact [⟨[], 0x100, 0x2000, 0x100, 0x500, 0⟩,
    ⟨[], 2, 0xFFFFFFFF, 0x200, 0x500, 0⟩, ⟨[], 0, 0, 1, 0x600, 0⟩] 0x600 0x3000
  apply (errors _).mpr
  use 1, ⟨[], 2, 0xFFFFFFFF, 0x200, 0x500, 0⟩, rfl
  constructor
  · intro j hj t ht
    obtain rfl : j = 0 := by omega
    obtain rfl := Option.some.inj ht
    decide
  · left
    decide

end Layout

end ImageRefs
