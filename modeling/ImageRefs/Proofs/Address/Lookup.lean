import ImageRefs.Proofs.Section.Table

/-!
# Looking up offsets and RVAs

A mapping loads a byte of the file at an RVA (`Mapping.Loads`).  A lookup in a load map goes from
the offset to the RVA or back, and takes the first mapping that covers what it is asked for.  The
two directions judge by different ranges: an offset is covered if it is loaded, an RVA also if
it is filled with zeros.

* What a lookup answers is loaded by some mapping (`LoadMap.exists_loads_of_offsetToRva?`,
  `LoadMap.exists_loads_of_rvaToOffset?`).
* If no two mappings cover the same RVA, the offset of a loaded byte is found by its RVA, and if
  no two mappings load the byte at the same offset, its RVA is found by its offset
  (`LoadMap.rvaToOffset?_of_loads`, `LoadMap.offsetToRva?_of_loads`).
* So the lookups are inverse to each other (`LoadMap.lookups_inverse`), and it does not matter
  in which order the mappings come (`LoadMap.alike_of_perm`).
-/

namespace ImageRefs

/-- In a list in which no two elements meet a condition, an element that meets it is found. -/
theorem find?_eq_some_of_pairwise {α : Type} {p : α → Bool} {list : List α}
    (unique : list.Pairwise fun a b => ¬ (p a = true ∧ p b = true)) {a : α} (ha : a ∈ list)
    (h : p a = true) :
  list.find? p = some a
  := by
  induction unique with
  | nil => cases ha
  | @cons b list other _ ih =>
    rcases List.mem_cons.mp ha with rfl | tail
    · apply List.find?_cons_of_pos h
    · rw [List.find?_cons_of_neg, ih tail]
      intro hb
      apply other a tail ⟨hb, h⟩

/-- In a list in which no two elements meet a condition, which one is found does not depend on
the order. -/
theorem find?_eq_of_perm {α : Type} {p : α → Bool} {list list' : List α}
    (perm : list.Perm list')
    (unique : list.Pairwise fun a b => ¬ (p a = true ∧ p b = true)) :
  list.find? p = list'.find? p
  := by
  have unique' : list'.Pairwise fun a b => ¬ (p a = true ∧ p b = true) := by
    apply (perm.pairwise_iff _).mp unique
    intro a b h both
    apply h both.symm
  apply Option.ext
  intro a
  constructor
  · intro found
    apply find?_eq_some_of_pairwise unique' (perm.subset (List.mem_of_find?_eq_some found))
    apply List.find?_some found
  · intro found
    apply find?_eq_some_of_pairwise unique (perm.symm.subset (List.mem_of_find?_eq_some found))
    apply List.find?_some found

namespace Mapping

/-- The file offsets of the bytes that are loaded. -/
def offsets (m : Mapping) : Region :=
  ⟨m.offsetBegin, m.shared⟩

/-- The RVAs that are covered, be it with file bytes or with zeros. -/
def rvas (m : Mapping) : Region :=
  ⟨m.rvaBegin, m.rvaSize⟩

/-- The byte at a file offset is loaded at an RVA. -/
def Loads (m : Mapping) (offset rva : Nat) : Prop :=
  ∃ i < m.shared, offset = m.offsetBegin + i ∧ rva = m.rvaBegin + i

/-- The ends of both ranges have 32 bits. -/
def Bounded (m : Mapping) : Prop :=
  m.offsetBegin + m.offsetSize < space32 ∧ m.rvaBegin + m.rvaSize < space32

variable {m : Mapping} {offset rva : Nat}

theorem coversOffset_eq_true_iff :
  m.coversOffset offset = true ↔ m.offsets.Holds offset
  := m.coversOffset_iff offset

theorem coversRva_eq_true_iff :
  m.coversRva rva = true ↔ m.rvas.Holds rva
  := m.coversRva_iff rva

theorem shared_le_offsetSize (m : Mapping) :
  m.shared ≤ m.offsetSize
  := Nat.min_le_left _ _

theorem shared_le_rvaSize (m : Mapping) :
  m.shared ≤ m.rvaSize
  := Nat.min_le_right _ _

/-- A byte that is loaded has its offset and its RVA in the ranges of the mapping. -/
theorem Loads.covers (h : m.Loads offset rva) :
  m.coversOffset offset = true ∧ m.coversRva rva = true
  := by
  obtain ⟨i, inside, rfl, rfl⟩ := h
  have := m.shared_le_rvaSize
  rw [coversOffset_iff, coversRva_iff]
  omega

theorem loads_of_coversOffset (h : m.coversOffset offset = true) :
  m.Loads offset (m.rvaBegin + (offset - m.offsetBegin))
  := by
  obtain ⟨low, high⟩ := (m.coversOffset_iff offset).mp h
  use offset - m.offsetBegin
  omega

theorem loads_of_coversRva (h : m.coversRva rva = true) (backed : rva - m.rvaBegin < m.shared) :
  m.Loads (m.offsetBegin + (rva - m.rvaBegin)) rva
  := by
  obtain ⟨low, -⟩ := (m.coversRva_iff rva).mp h
  use rva - m.rvaBegin, backed
  omega

/-- A byte that a bounded mapping loads has an offset and an RVA of 32 bits. -/
theorem Bounded.lt_of_loads (bounded : m.Bounded) (h : m.Loads offset rva) :
  offset < space32 ∧ rva < space32
  := by
  obtain ⟨i, inside, rfl, rfl⟩ := h
  obtain ⟨offsets, rvas⟩ := bounded
  have := m.shared_le_offsetSize
  have := m.shared_le_rvaSize
  omega

end Mapping

namespace LoadMap

variable {l : LoadMap} {offset rva : Nat}

/-- The byte at an offset that has an RVA is loaded there. -/
theorem exists_loads_of_offsetToRva? (h : l.offsetToRva? offset = some rva) :
  ∃ m ∈ l.mappings, m.Loads offset rva
  := by
  obtain ⟨m, found, rfl⟩ := Option.map_eq_some_iff.mp h
  have covers := List.find?_some found
  use m, List.mem_of_find?_eq_some found
  apply Mapping.loads_of_coversOffset covers

/-- The byte at the offset of an RVA is loaded there. -/
theorem exists_loads_of_rvaToOffset? (h : l.rvaToOffset? rva = some offset) :
  ∃ m ∈ l.mappings, m.Loads offset rva
  := by
  obtain ⟨m, found, h⟩ := Option.bind_eq_some_iff.mp h
  have covers := List.find?_some found
  use m, List.mem_of_find?_eq_some found
  split at h
  · next backed =>
    cases h
    apply Mapping.loads_of_coversRva covers backed
  · cases h

/-- Of mappings that load no byte of the file twice, one at most covers an offset. -/
theorem unique_coversOffset {mappings : List Mapping}
    (disjoint : mappings.Pairwise fun m n => m.offsets.Disjoint n.offsets) (offset : Nat) :
  mappings.Pairwise fun m n => ¬ (m.coversOffset offset = true ∧ n.coversOffset offset = true)
  := by
  apply disjoint.imp
  intro m n h
  rw [Mapping.coversOffset_eq_true_iff, Mapping.coversOffset_eq_true_iff]
  apply h offset

/-- Of mappings that cover no RVA twice, one at most covers an RVA. -/
theorem unique_coversRva {mappings : List Mapping}
    (disjoint : mappings.Pairwise fun m n => m.rvas.Disjoint n.rvas) (rva : Nat) :
  mappings.Pairwise fun m n => ¬ (m.coversRva rva = true ∧ n.coversRva rva = true)
  := by
  apply disjoint.imp
  intro m n h
  rw [Mapping.coversRva_eq_true_iff, Mapping.coversRva_eq_true_iff]
  apply h rva

/-- The RVA of a loaded byte is found by its offset, if no other mapping loads a byte from
there. -/
theorem offsetToRva?_of_loads
    (disjoint : l.mappings.Pairwise fun m n => m.offsets.Disjoint n.offsets)
    {m : Mapping} (hm : m ∈ l.mappings) (h : m.Loads offset rva) :
  l.offsetToRva? offset = some rva
  := by
  rw [offsetToRva?,
    find?_eq_some_of_pairwise (unique_coversOffset disjoint offset) hm h.covers.1]
  obtain ⟨i, -, rfl, rfl⟩ := h
  rw [Option.map_some, Nat.add_sub_cancel_left]

/-- The offset of a loaded byte is found by its RVA, if no other mapping covers this. -/
theorem rvaToOffset?_of_loads
    (disjoint : l.mappings.Pairwise fun m n => m.rvas.Disjoint n.rvas)
    {m : Mapping} (hm : m ∈ l.mappings) (h : m.Loads offset rva) :
  l.rvaToOffset? rva = some offset
  := by
  rw [rvaToOffset?, find?_eq_some_of_pairwise (unique_coversRva disjoint rva) hm h.covers.2]
  obtain ⟨i, inside, rfl, rfl⟩ := h
  rw [Option.bind_some, Nat.add_sub_cancel_left, if_pos inside]

theorem validOffset_eq_true_iff :
  l.validOffset offset = true ↔ ∃ m ∈ l.mappings, m.coversOffset offset = true
  := List.any_eq_true

theorem validRva_eq_true_iff :
  l.validRva rva = true ↔ ∃ m ∈ l.mappings, m.coversRva rva = true
  := List.any_eq_true

/-- An offset has an RVA exactly if it is valid. -/
theorem isSome_offsetToRva? (l : LoadMap) (offset : Nat) :
  (l.offsetToRva? offset).isSome = l.validOffset offset
  := by
  rw [offsetToRva?, Option.isSome_map, List.isSome_find?, validOffset]

/-! ### The order of mappings -/

/-- Both load maps answer every question alike. -/
structure Alike (l l' : LoadMap) : Prop where
  offsetToRva? : l.offsetToRva? = l'.offsetToRva?
  rvaToOffset? : l.rvaToOffset? = l'.rvaToOffset?
  validRva : l.validRva = l'.validRva
  validOffset : l.validOffset = l'.validOffset

/-- The order of mappings does not matter, if no two of them cover the same RVA and no two load
the byte at the same offset. -/
theorem alike_of_perm {l l' : LoadMap} (perm : l.mappings.Perm l'.mappings)
    (rvas : l.mappings.Pairwise fun m n => m.rvas.Disjoint n.rvas)
    (offsets : l.mappings.Pairwise fun m n => m.offsets.Disjoint n.offsets) :
  l.Alike l'
  := by
  constructor
  · funext offset
    rw [offsetToRva?, offsetToRva?, find?_eq_of_perm perm (unique_coversOffset offsets offset)]
  · funext rva
    rw [rvaToOffset?, rvaToOffset?, find?_eq_of_perm perm (unique_coversRva rvas rva)]
  · funext rva
    apply Bool.eq_iff_iff.mpr
    simp only [validRva_eq_true_iff, perm.mem_iff]
  · funext offset
    apply Bool.eq_iff_iff.mpr
    simp only [validOffset_eq_true_iff, perm.mem_iff]

/-! ### There and back -/

/-- An RVA with an offset is valid, and so is the offset. -/
theorem valid_of_loads {m : Mapping} (hm : m ∈ l.mappings) (h : m.Loads offset rva) :
  l.validOffset offset = true ∧ l.validRva rva = true
  := by
  obtain ⟨coversOffset, coversRva⟩ := h.covers
  constructor
  · apply validOffset_eq_true_iff.mpr
    use m, hm
  · apply validRva_eq_true_iff.mpr
    use m, hm

/-- The lookups of an accepted list of mappings are inverse to each other.

* If no RVA lies in two mappings, the RVA of an offset has that offset.
* If no byte of the file is loaded by two mappings, the offset of an RVA has that RVA.
* An offset has an RVA exactly if it is valid, and the RVA is valid then.  An RVA that has an
  offset is valid, and so is the offset.
* An offset in the range of no mapping has no RVA, and an RVA in the range of none no offset.
* The sums of a lookup have 32 bits: that of the beginning of the RVAs and the distance of a
  covered offset, and that of the beginning of the offsets and the distance of a covered RVA that
  has file bytes. -/
theorem lookups_inverse {mappings : List Mapping} (h : ofMappings mappings = .ok l) :
  (mappings.Pairwise (fun m n => m.rvas.Disjoint n.rvas) →
      ∀ offset rva, l.offsetToRva? offset = some rva → l.rvaToOffset? rva = some offset)
    ∧ (mappings.Pairwise (fun m n => m.offsets.Disjoint n.offsets) →
      ∀ rva offset, l.rvaToOffset? rva = some offset → l.offsetToRva? offset = some rva)
    ∧ (∀ offset, (l.offsetToRva? offset).isSome = l.validOffset offset)
    ∧ (∀ offset rva, l.offsetToRva? offset = some rva → l.validRva rva = true)
    ∧ (∀ rva offset, l.rvaToOffset? rva = some offset →
      l.validRva rva = true ∧ l.validOffset offset = true)
    ∧ (∀ offset, (∀ m ∈ mappings, ¬ m.offsets.Holds offset) → l.offsetToRva? offset = none)
    ∧ (∀ rva, (∀ m ∈ mappings, ¬ m.rvas.Holds rva) → l.rvaToOffset? rva = none)
    ∧ ∀ m ∈ mappings,
      (∀ offset, m.offsets.Holds offset → m.rvaBegin + (offset - m.offsetBegin) < space32)
      ∧ ∀ rva, m.rvas.Holds rva → rva - m.rvaBegin < m.shared →
        m.offsetBegin + (rva - m.rvaBegin) < space32
  := by
  obtain ⟨bounded, rfl⟩ := ofMappings_eq_ok_iff.mp h
  and_intros
  · intro disjoint offset rva found
    obtain ⟨m, hm, loads⟩ := exists_loads_of_offsetToRva? found
    apply rvaToOffset?_of_loads disjoint hm loads
  · intro disjoint rva offset found
    obtain ⟨m, hm, loads⟩ := exists_loads_of_rvaToOffset? found
    apply offsetToRva?_of_loads disjoint hm loads
  · apply isSome_offsetToRva?
  · intro offset rva found
    obtain ⟨m, hm, loads⟩ := exists_loads_of_offsetToRva? found
    apply (valid_of_loads hm loads).2
  · intro rva offset found
    obtain ⟨m, hm, loads⟩ := exists_loads_of_rvaToOffset? found
    apply (valid_of_loads hm loads).symm
  · intro offset outside
    apply Option.eq_none_iff_forall_ne_some.mpr
    intro rva found
    obtain ⟨m, hm, loads⟩ := exists_loads_of_offsetToRva? found
    apply outside m hm (Mapping.coversOffset_eq_true_iff.mp loads.covers.1)
  · intro rva outside
    apply Option.eq_none_iff_forall_ne_some.mpr
    intro offset found
    obtain ⟨m, hm, loads⟩ := exists_loads_of_rvaToOffset? found
    apply outside m hm (Mapping.coversRva_eq_true_iff.mp loads.covers.2)
  · intro m hm
    constructor
    · intro offset inside
      have loads := Mapping.loads_of_coversOffset (Mapping.coversOffset_eq_true_iff.mpr inside)
      apply (Mapping.Bounded.lt_of_loads (bounded m hm) loads).2
    · intro rva inside backed
      have loads := Mapping.loads_of_coversRva (Mapping.coversRva_eq_true_iff.mpr inside) backed
      apply (Mapping.Bounded.lt_of_loads (bounded m hm) loads).1

/-- Three mappings: the RVAs of the first go on behind its bytes, the second has bytes in the
file but no RVAs, and the ranges of the third end with the largest offset and the largest RVA. -/
def sampleMappings : List Mapping :=
  [⟨0x400, 0x200, 0x1000, 0x300⟩, ⟨0x500, 0x100, 0x1100, 0⟩,
    ⟨0xFFFFFF00, 0xFF, 0xFFFFF000, 0xFFF⟩]

/-- In the sample the last byte of the third mapping is found both ways, and the zeros behind the
bytes of the first have no offset. -/
theorem lookups_inverse_sample :
  (⟨sampleMappings⟩ : LoadMap).rvaToOffset? 0xFFFFF0FE = some 0xFFFFFFFE
    ∧ (⟨sampleMappings⟩ : LoadMap).offsetToRva? 0xFFFFFFFE = some 0xFFFFF0FE
    ∧ (⟨sampleMappings⟩ : LoadMap).rvaToOffset? 0x1200 = none
  := by
  have accepted : ofMappings sampleMappings = .ok ⟨sampleMappings⟩ := rfl
  obtain ⟨back, forth, -⟩ := lookups_inverse accepted
  and_intros
  · apply back (by decide)
    decide
  · apply forth (by decide)
    decide
  · decide

end LoadMap

end ImageRefs
