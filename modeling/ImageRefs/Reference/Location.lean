/-!
# Lists of locations

Locations are file offsets of fields.  `spaced gap` puts a list of them in ascending
order and keeps, from the lowest on, each one that lies at least `gap` above the last one
kept; with a gap of one it drops repetitions only.  `within` cuts a window out of an
ascending list.
-/

namespace ImageRefs.Locations

/-- The elements of an ascending list that are kept, from `least` on, when each must lie
at least `gap` above the last one kept. -/
def spacedFrom (gap : Nat) : (least : Nat) → List Nat → List Nat
  | _, [] => []
  | least, l :: ls =>
    if least ≤ l then l :: spacedFrom gap (l + gap) ls else spacedFrom gap least ls

/-- The locations of a list in ascending order, without those that lie less than `gap`
above the last one kept. -/
def spaced (gap : Nat) (locations : List Nat) : List Nat :=
  spacedFrom gap 0 locations.mergeSort

/-- The part of an ascending list from `low` up to, and without, `high`. -/
def within (low high : Nat) (locations : List Nat) : List Nat :=
  (locations.dropWhile (· < low)).takeWhile (· < high)

theorem le_of_mem_spacedFrom {gap least : Nat} {locations : List Nat} {l : Nat}
    (h : l ∈ spacedFrom gap least locations) :
  least ≤ l
  := by
  induction locations generalizing least with
  | nil => simp [spacedFrom] at h
  | cons m ms ih =>
    unfold spacedFrom at h
    split at h
    · rcases List.mem_cons.mp h with rfl | tail
      · assumption
      · have := ih tail
        omega
    · exact ih h

/-- Spaced locations come from the list. -/
theorem mem_of_mem_spacedFrom {gap least : Nat} {locations : List Nat} {l : Nat}
    (h : l ∈ spacedFrom gap least locations) :
  l ∈ locations
  := by
  induction locations generalizing least with
  | nil => simp [spacedFrom] at h
  | cons m ms ih =>
    unfold spacedFrom at h
    split at h
    · rcases List.mem_cons.mp h with rfl | tail
      · exact List.mem_cons_self
      · exact List.mem_cons_of_mem _ (ih tail)
    · exact List.mem_cons_of_mem _ (ih h)

/-- Each spaced location lies at least `gap` above every one before it. -/
theorem pairwise_spacedFrom (gap least : Nat) (locations : List Nat) :
  (spacedFrom gap least locations).Pairwise fun l m => l + gap ≤ m
  := by
  induction locations generalizing least with
  | nil => exact List.Pairwise.nil
  | cons m ms ih =>
    unfold spacedFrom
    split
    · apply List.Pairwise.cons
      · intro l hl
        exact le_of_mem_spacedFrom hl
      · apply ih
    · apply ih

theorem mem_of_mem_spaced {gap : Nat} {locations : List Nat} {l : Nat}
    (h : l ∈ spaced gap locations) :
  l ∈ locations
  := List.mem_mergeSort.mp (mem_of_mem_spacedFrom h)

theorem pairwise_spaced (gap : Nat) (locations : List Nat) :
  (spaced gap locations).Pairwise fun l m => l + gap ≤ m
  := pairwise_spacedFrom gap 0 _

end ImageRefs.Locations
