import ImageRefs.Reference.Location
import Mathlib.Data.List.Basic
import Mathlib.Data.List.Sort

/-!
# Spaced locations and windows

Only which locations a list has, and how often, matters to `spaced`, not their order; with a
gap of one it does not matter how often either (`spaced_one_congr`).  Locations that are spaced
from one to the next are spaced throughout.  A window of an ascending list holds the locations
that lie in it (`within_eq_filter`).
-/

namespace ImageRefs.Locations

/-- Sorting puts locations in ascending order. -/
theorem pairwise_mergeSort_le (locations : List Nat) :
  locations.mergeSort.Pairwise (· ≤ ·)
  := by
  have trans (a b c : Nat) : decide (a ≤ b) = true → decide (b ≤ c) = true →
      decide (a ≤ c) = true := by
    simp only [decide_eq_true_iff]
    apply Nat.le_trans
  have total (a b : Nat) : (decide (a ≤ b) || decide (b ≤ a)) = true := by
    simp only [Bool.or_eq_true, decide_eq_true_iff]
    apply Nat.le_total
  apply (List.pairwise_mergeSort trans total locations).imp
  intro l m h
  apply of_decide_eq_true h

/-- Sorting a list of locations gives the only ascending list of them. -/
theorem mergeSort_eq_of_perm {locations sorted : List Nat} (perm : locations.Perm sorted)
    (ascending : sorted.Pairwise (· ≤ ·)) :
  locations.mergeSort = sorted
  := by
  apply List.Perm.eq_of_pairwise _ (pairwise_mergeSort_le locations) ascending
    ((List.mergeSort_perm _ _).trans perm)
  intro a b _ _
  apply Nat.le_antisymm

/-- The spaced locations of a list are those of its locations in ascending order. -/
theorem spaced_of_perm {gap : Nat} {locations sorted : List Nat}
    (perm : locations.Perm sorted) (ascending : sorted.Pairwise (· ≤ ·)) :
  spaced gap locations = spacedFrom gap 0 sorted
  := by
  rw [spaced, mergeSort_eq_of_perm perm ascending]

/-- The order of a list does not matter to its spaced locations. -/
theorem spaced_eq_of_perm {gap : Nat} {locations locations' : List Nat}
    (perm : locations.Perm locations') :
  spaced gap locations = spaced gap locations'
  := by
  rw [spaced_of_perm (perm.trans (List.mergeSort_perm locations' _).symm)
    (pairwise_mergeSort_le locations'), spaced]

/-- If each location lies at least `gap` below the next one, it lies so below all later
ones. -/
theorem pairwise_of_isChain {gap : Nat} {locations : List Nat}
    (spaced : locations.IsChain fun l m => l + gap ≤ m) :
  locations.Pairwise fun l m => l + gap ≤ m
  := by
  have : Trans (fun l m => l + gap ≤ m) (fun l m => l + gap ≤ m)
      (fun l m : Nat => l + gap ≤ m) := by
    constructor
    intro l m n
    omega
  apply spaced.pairwise

/-- Locations that are spaced already are all kept. -/
theorem spacedFrom_eq_self {gap least : Nat} {locations : List Nat}
    (spaced : locations.Pairwise fun l m => l + gap ≤ m) (low : ∀ l ∈ locations, least ≤ l) :
  spacedFrom gap least locations = locations
  := by
  induction spaced generalizing least with
  | nil => rfl
  | cons later _ ih =>
    rw [spacedFrom, if_pos (low _ List.mem_cons_self), ih later]

/-- Locations any two of which are `gap` apart are spaced once they are sorted. -/
theorem pairwise_mergeSort_of_apart {gap : Nat} {locations : List Nat}
    (apart : locations.Pairwise fun l m => l + gap ≤ m ∨ m + gap ≤ l) :
  locations.mergeSort.Pairwise fun l m => l + gap ≤ m
  := by
  have sorted : locations.mergeSort.Pairwise fun l m => l + gap ≤ m ∨ m + gap ≤ l :=
    ((List.mergeSort_perm locations _).pairwise_iff Or.symm).mpr apart
  apply ((pairwise_mergeSort_le locations).and sorted).imp
  intro l m
  omega

/-! ### A gap of one -/

/-- Of an ascending list, spacing by one keeps every location from the least one on. -/
theorem mem_spacedFrom_one {least l : Nat} {locations : List Nat}
    (ascending : locations.Pairwise (· ≤ ·)) (h : l ∈ locations) (low : least ≤ l) :
  l ∈ spacedFrom 1 least locations
  := by
  induction ascending generalizing least with
  | nil => cases h
  | @cons m ms later _ ih =>
    rw [spacedFrom]
    rcases List.mem_cons.mp h with rfl | tail
    · rw [if_pos low]
      apply List.mem_cons_self
    · have above := later l tail
      split
      · rcases Nat.eq_or_lt_of_le above with rfl | above
        · apply List.mem_cons_self
        · apply List.mem_cons_of_mem
          apply ih tail above
      · apply ih tail low

/-- Spacing by one loses no location. -/
theorem mem_spaced_one_iff {locations : List Nat} {l : Nat} :
  l ∈ spaced 1 locations ↔ l ∈ locations
  := by
  constructor
  · apply mem_of_mem_spaced
  · intro h
    apply mem_spacedFrom_one (pairwise_mergeSort_le locations) _ (Nat.zero_le l)
    apply List.mem_mergeSort.mpr h

/-- Lists with the same locations are the same when they are spaced by one. -/
theorem spaced_one_congr {locations locations' : List Nat}
    (same : ∀ l, l ∈ locations ↔ l ∈ locations') :
  spaced 1 locations = spaced 1 locations'
  := by
  have ascending (locations : List Nat) : (spaced 1 locations).Pairwise (· < ·) :=
    pairwise_spaced 1 locations
  apply (ascending locations).eq_of_mem_iff (ascending locations')
  intro l
  rw [mem_spaced_one_iff, mem_spaced_one_iff, same]

/-! ### Windows -/

/-- The locations of an ascending list below a bound come first. -/
theorem takeWhile_lt_eq_filter {locations : List Nat} (ascending : locations.Pairwise (· ≤ ·))
    (high : Nat) :
  locations.takeWhile (· < high) = locations.filter (· < high)
  := by
  induction ascending with
  | nil => rfl
  | @cons l ls later _ ih =>
    by_cases below : l < high
    · rw [List.takeWhile_cons_of_pos (by rwa [decide_eq_true_iff]),
        List.filter_cons_of_pos (by rwa [decide_eq_true_iff]), ih]
    · rw [List.takeWhile_cons_of_neg (by rwa [decide_eq_true_iff])]
      symm
      apply List.filter_eq_nil_iff.mpr
      intro m hm
      rw [decide_eq_true_iff]
      rcases List.mem_cons.mp hm with rfl | tail
      · apply below
      · have := later m tail
        omega

/-- The locations of an ascending list from a bound on come last. -/
theorem dropWhile_lt_eq_filter {locations : List Nat} (ascending : locations.Pairwise (· ≤ ·))
    (low : Nat) :
  locations.dropWhile (· < low) = locations.filter (low ≤ ·)
  := by
  induction ascending with
  | nil => rfl
  | @cons l ls later _ ih =>
    by_cases below : l < low
    · rw [List.dropWhile_cons_of_pos (by rwa [decide_eq_true_iff]),
        List.filter_cons_of_neg (by rw [decide_eq_true_iff]; omega), ih]
    · rw [List.dropWhile_cons_of_neg (by rwa [decide_eq_true_iff])]
      symm
      apply List.filter_eq_self.mpr
      intro m hm
      rw [decide_eq_true_iff]
      rcases List.mem_cons.mp hm with rfl | tail
      · omega
      · have := later m tail
        omega

/-- A window of an ascending list holds the locations that lie in it. -/
theorem within_eq_filter {locations : List Nat} (ascending : locations.Pairwise (· ≤ ·))
    (low high : Nat) :
  within low high locations = locations.filter fun l => decide (low ≤ l ∧ l < high)
  := by
  have rest := ascending.sublist (List.dropWhile_sublist (· < low))
  rw [within, takeWhile_lt_eq_filter rest, dropWhile_lt_eq_filter ascending, List.filter_filter]
  congr 1
  funext l
  rw [← Bool.decide_and, decide_eq_decide, and_comm]

/-- A window of a list is a part of it. -/
theorem within_sublist (low high : Nat) (locations : List Nat) :
  (within low high locations).Sublist locations
  := (List.takeWhile_sublist _).trans (List.dropWhile_sublist _)

end ImageRefs.Locations
