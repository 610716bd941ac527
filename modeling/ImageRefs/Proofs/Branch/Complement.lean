import ImageRefs.Branch.Gap
import ImageRefs.Proofs.Bytes.Field
import Mathlib.Data.List.Basic

/-!
# The gaps as the complement of the fields

Between two fields lies at most one piece, from the end of those before to the beginning of the
next one (`Gap.between_of_lt`).  By induction over the locations, which ascend but may repeat
and whose fields may overlap:

* an offset lies in a gap exactly if it lies in the region and in no field
  (`Gap.holds_between_iff`);
* no gap is empty, and each lies in the region (`Gap.bounds_of_mem_between`);
* a gap ends before the next one begins, with at least one offset in between
  (`Gap.pairwise_between`);
* there is at most one gap more than there are fields (`Gap.length_between_le`).

The gaps of a region are those between the fields that do not end before it
(`Gap.exists_ofRegion_eq`).  The other fields hold no offset of the region, so the same is true
of all the fields together (`Gap.ofRegion_complement`).
-/

namespace ImageRefs.Gap

variable {width stop cursor i : Nat} {locations : List Nat} {gap : Region}

/-! ### Pieces -/

/-- The region from `low` up to, and without, `high`, unless it would be empty. -/
def piece (low high : Nat) : List Region :=
  if low < high then [⟨low, high - low⟩] else []

theorem mem_piece_iff {low high : Nat} :
  gap ∈ piece low high ↔ low < high ∧ gap = ⟨low, high - low⟩
  := by
  rw [piece]
  split
  · next order => simp [order]
  · next order => simp [order]

theorem length_piece_le (low high : Nat) :
  (piece low high).length ≤ 1
  := by
  rw [piece]
  split <;> simp

theorem pairwise_piece (low high : Nat) (r : Region → Region → Prop) :
  (piece low high).Pairwise r
  := by
  rw [piece]
  split <;> simp

theorem holds_piece_iff {low high : Nat} :
  (∃ gap ∈ piece low high, gap.Holds i) ↔ low ≤ i ∧ i < high
  := by
  simp only [mem_piece_iff, and_assoc, exists_and_left, exists_eq_left, Region.Holds]
  omega

/-! ### The gaps, piece by piece -/

/-- Behind the last field the rest is one piece. -/
theorem between_nil :
  between width stop cursor [] = piece cursor stop
  := by
  rw [between, piece]

/-- Nothing is left once the end has been reached. -/
theorem between_of_le (reached : stop ≤ cursor) :
  between width stop cursor locations = []
  := by
  cases locations with
  | nil => rw [between, if_neg (Nat.not_lt_of_le reached)]
  | cons l locations => rw [between, if_neg (Nat.not_lt_of_le reached)]

/-- Before a field that begins before the end lies one piece, and the others lie behind the
field. -/
theorem between_of_lt {l : Nat} (inside : l < stop) (ends : l + width < space64) :
  between width stop cursor (l :: locations)
    = piece cursor l ++ between width stop (max cursor (l + width)) locations
  := by
  rcases Nat.lt_or_ge cursor stop with before | reached
  · rw [between, if_pos before, if_pos inside, fieldEnd, Nat.mod_eq_of_lt ends, piece]
    split <;> rfl
  · rw [between_of_le reached, piece, if_neg (by omega), between_of_le (by omega),
      List.append_nil]

/-- Before a field that does not begin before the end the rest is one piece. -/
theorem between_of_beyond {l : Nat} (beyond : stop ≤ l) :
  between width stop cursor (l :: locations) = piece cursor stop
  := by
  rw [between, if_neg (Nat.not_lt_of_le beyond), piece]

/-- The gaps of a region are those between the fields that do not end before it. -/
theorem exists_ofRegion_eq (region : Region) (ends : ∀ l ∈ locations, l + width < space64) :
  ∃ passed rest, locations = passed ++ rest ∧ (∀ l ∈ passed, l + width ≤ region.offset)
    ∧ ofRegion width region locations = between width region.stop region.offset rest
  := by
  let ended (l : Nat) : Bool := decide (fieldEnd width l ≤ region.offset)
  use locations.takeWhile ended, locations.dropWhile ended
  use List.takeWhile_append_dropWhile.symm
  constructor
  · intro l hl
    have passed := of_decide_eq_true (List.all_eq_true.mp List.all_takeWhile l hl)
    have here := ends l ((List.takeWhile_sublist ended).subset hl)
    rw [fieldEnd, Nat.mod_eq_of_lt here] at passed
    apply passed
  · rfl

/-! ### The gaps in order -/

/-- A gap is not empty, and lies between the cursor and the end. -/
theorem bounds_of_mem_between (ends : ∀ l ∈ locations, l + width < space64)
    (h : gap ∈ between width stop cursor locations) :
  0 < gap.size ∧ cursor ≤ gap.offset ∧ gap.offset + gap.size ≤ stop
  := by
  induction locations generalizing cursor with
  | nil =>
    rw [between_nil] at h
    obtain ⟨order, rfl⟩ := mem_piece_iff.mp h
    dsimp only
    omega
  | cons l locations ih =>
    obtain ⟨here, ends⟩ := List.forall_mem_cons.mp ends
    rcases Nat.lt_or_ge l stop with inside | beyond
    · rw [between_of_lt inside here] at h
      rcases List.mem_append.mp h with first | later
      · obtain ⟨order, rfl⟩ := mem_piece_iff.mp first
        dsimp only
        omega
      · obtain ⟨positive, low, high⟩ := ih ends later
        use positive, by omega
    · rw [between_of_beyond beyond] at h
      obtain ⟨order, rfl⟩ := mem_piece_iff.mp h
      dsimp only
      omega

/-- The gaps ascend, and between two of them lies at least one offset. -/
theorem pairwise_between (positive : 0 < width) (ends : ∀ l ∈ locations, l + width < space64) :
  (between width stop cursor locations).Pairwise fun g h => g.offset + g.size < h.offset
  := by
  induction locations generalizing cursor with
  | nil =>
    rw [between_nil]
    apply pairwise_piece
  | cons l locations ih =>
    obtain ⟨here, ends⟩ := List.forall_mem_cons.mp ends
    rcases Nat.lt_or_ge l stop with inside | beyond
    · rw [between_of_lt inside here]
      apply List.pairwise_append.mpr
      use pairwise_piece _ _ _, ih ends
      intro first hfirst gap hgap
      obtain ⟨order, rfl⟩ := mem_piece_iff.mp hfirst
      obtain ⟨-, low, -⟩ := bounds_of_mem_between ends hgap
      dsimp only
      omega
    · rw [between_of_beyond beyond]
      apply pairwise_piece

/-- There is at most one gap more than there are fields. -/
theorem length_between_le (ends : ∀ l ∈ locations, l + width < space64) :
  (between width stop cursor locations).length ≤ locations.length + 1
  := by
  induction locations generalizing cursor with
  | nil =>
    rw [between_nil]
    apply length_piece_le
  | cons l locations ih =>
    obtain ⟨here, ends⟩ := List.forall_mem_cons.mp ends
    rw [List.length_cons]
    rcases Nat.lt_or_ge l stop with inside | beyond
    · rw [between_of_lt inside here, List.length_append, Nat.add_comm]
      apply Nat.add_le_add (ih ends) (length_piece_le cursor l)
    · rw [between_of_beyond beyond]
      apply Nat.le_trans (length_piece_le cursor stop)
      apply Nat.le_add_left

/-! ### The complement -/

/-- Some field of `width` bytes at one of the locations holds an offset. -/
def Touched (width : Nat) (locations : List Nat) (i : Nat) : Prop :=
  ∃ l ∈ locations, Region.Holds ⟨l, width⟩ i

theorem not_touched_nil :
  ¬ Touched width [] i
  := by
  rintro ⟨l, hl, -⟩
  cases hl

/-- No field holds an offset before the first one. -/
theorem touched_cons_iff {l : Nat} (later : ∀ m ∈ locations, l ≤ m) :
  Touched width (l :: locations) i ↔ l ≤ i ∧ (i < l + width ∨ Touched width locations i)
  := by
  rw [Touched, Touched, List.exists_mem_cons_iff]
  constructor
  · rintro (⟨low, high⟩ | ⟨m, hm, low, high⟩)
    · exact ⟨low, .inl high⟩
    · exact ⟨Nat.le_trans (later m hm) low, .inr ⟨m, hm, low, high⟩⟩
  · rintro ⟨low, high | other⟩
    · exact .inl ⟨low, high⟩
    · exact .inr other

/-- Fields that end at or before an offset do not hold it. -/
theorem touched_append_iff {passed : List Nat} (behind : ∀ l ∈ passed, l + width ≤ i) :
  Touched width (passed ++ locations) i ↔ Touched width locations i
  := by
  simp only [Touched, List.mem_append, or_and_right, exists_or]
  apply or_iff_right
  rintro ⟨l, hl, low, high⟩
  apply Nat.not_lt_of_le (behind l hl) high

/-- An offset lies in a gap exactly if it lies between the cursor and the end and in no
field. -/
theorem holds_between_iff (ascending : locations.Pairwise (· ≤ ·))
    (ends : ∀ l ∈ locations, l + width < space64) :
  (∃ gap ∈ between width stop cursor locations, gap.Holds i)
    ↔ cursor ≤ i ∧ i < stop ∧ ¬ Touched width locations i
  := by
  induction ascending generalizing cursor with
  | nil =>
    rw [between_nil, holds_piece_iff, iff_true_intro not_touched_nil, and_true]
  | @cons l locations later _ ih =>
    obtain ⟨here, ends⟩ := List.forall_mem_cons.mp ends
    rw [touched_cons_iff later]
    rcases Nat.lt_or_ge l stop with inside | beyond
    · simp only [between_of_lt inside here, List.mem_append, or_and_right, exists_or,
        holds_piece_iff, ih ends]
      by_cases touched : Touched width locations i
      · simp only [touched, not_true, and_false, or_false, or_true, and_true]
        omega
      · simp only [touched, not_false_eq_true, and_true, or_false]
        omega
    · rw [between_of_beyond beyond, holds_piece_iff]
      constructor
      · rintro ⟨low, high⟩
        exact ⟨low, high, fun touched => by omega⟩
      · rintro ⟨low, high, -⟩
        exact ⟨low, high⟩

/-- The gaps of a region between fields of `width` bytes, whose locations ascend, are the
complement of the fields.  The region may lack an end, and the fields may repeat, overlap, touch
each other and stand across the ends of the region.

* A gap is not empty, and lies in the region.
* The gaps ascend, and between two of them lies at least one offset.
* An offset of the region lies in a gap exactly if it lies in no field.
* There is at most one gap more than there are fields. -/
theorem ofRegion_complement (region : Region) (positive : 0 < width)
    (ascending : locations.Pairwise (· ≤ ·)) (ends : ∀ l ∈ locations, l + width < space64) :
  (∀ gap ∈ ofRegion width region locations,
      0 < gap.size ∧ region.offset ≤ gap.offset ∧ gap.offset + gap.size ≤ region.stop)
    ∧ ((ofRegion width region locations).Pairwise fun g h => g.offset + g.size < h.offset)
    ∧ (∀ i, region.offset ≤ i → i < region.stop →
      ((∃ gap ∈ ofRegion width region locations, gap.Holds i)
        ↔ ¬ ∃ l ∈ locations, Region.Holds ⟨l, width⟩ i))
    ∧ (ofRegion width region locations).length ≤ locations.length + 1
  := by
  obtain ⟨passed, rest, rfl, behind, gaps⟩ := exists_ofRegion_eq region ends
  obtain ⟨-, ascending, -⟩ := List.pairwise_append.mp ascending
  obtain ⟨-, ends⟩ := List.forall_mem_append.mp ends
  rw [gaps]
  and_intros
  · intro gap h
    apply bounds_of_mem_between ends h
  · apply pairwise_between positive ends
  · intro i low high
    have touched : Touched width (passed ++ rest) i ↔ Touched width rest i := by
      apply touched_append_iff
      intro l hl
      apply Nat.le_trans (behind l hl) low
    rw [holds_between_iff ascending ends, ← touched]
    simp only [low, high, true_and]
    rfl
  · rw [List.length_append]
    apply Nat.le_trans (length_between_le ends)
    omega

/-- Of five fields the first three overlap, two of them at one location, and the last two touch
each other. -/
theorem ofRegion_complement_overlapping :
  ofRegion 4 ⟨0x0A, 0x20⟩ [0x0C, 0x0E, 0x0E, 0x14, 0x18]
      = [⟨0x0A, 0x02⟩, ⟨0x12, 0x02⟩, ⟨0x1C, 0x0E⟩]
    ∧ ¬ ∃ l ∈ [0x0C, 0x0E, 0x0E, 0x14, 0x18], Region.Holds ⟨l, 4⟩ 0x13
  := by
  have gaps : ofRegion 4 ⟨0x0A, 0x20⟩ [0x0C, 0x0E, 0x0E, 0x14, 0x18]
      = [⟨0x0A, 0x02⟩, ⟨0x12, 0x02⟩, ⟨0x1C, 0x0E⟩] := by
    decide
  have ascending : [0x0C, 0x0E, 0x0E, 0x14, 0x18].Pairwise (· ≤ ·) := by decide
  obtain ⟨-, -, complement, -⟩ :=
    ofRegion_complement ⟨0x0A, 0x20⟩ (by decide : 0 < 4) ascending (by decide)
  use gaps
  apply (complement 0x13 (by decide) (by decide)).mp
  rw [gaps]
  use ⟨0x12, 0x02⟩, by decide, by decide
  decide

end ImageRefs.Gap
