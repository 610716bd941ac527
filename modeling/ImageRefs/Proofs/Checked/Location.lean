import ImageRefs.Branch.Gap
import ImageRefs.Proofs.Checked.Basic
import ImageRefs.Reference.Location

/-!
# Checked lists of locations

The gaps between fields, the locations that are spaced, and the locations of a window are
computed from a list of locations one after the other, which comes to an end with the list.  If
a field at each location has an end that can be represented, none of the sums has a fault; where
the windows are cut has been found in the list, so they always lie inside of it.
-/

namespace ImageRefs.Checked

/-- `Gap.between`, checked. -/
def gapsBetween (width stop : Nat) : (cursor : Nat) → List Nat → Checked (List Region)
  | cursor, [] =>
    if cursor < stop then do
      let size ← difference stop cursor
      .ok [⟨cursor, size⟩]
    else
      .ok []
  | cursor, location :: locations =>
    if cursor < stop then
      if location < stop then do
        let behind ← sum space64 location width
        let gaps ← gapsBetween width stop (max cursor behind) locations
        if cursor < location then
          let size ← difference location cursor
          .ok (⟨cursor, size⟩ :: gaps)
        else
          .ok gaps
      else do
        let size ← difference stop cursor
        .ok [⟨cursor, size⟩]
    else
      .ok []

/-- `Gap.ofRegion`, checked. -/
def gaps (width : Nat) (region : Region) (locations : List Nat) : Checked (List Region) := do
  let ends ← locations.mapM fun location => sum space64 location width
  let rest ← window locations (partitionPoint (fun behind => decide (behind ≤ region.offset)) ends)
    locations.length
  gapsBetween width region.stop region.offset rest

/-- `Locations.spacedFrom`, checked: the bound is computed from the last location kept, if there
is one. -/
def spaced (gap : Nat) : (last : Option Nat) → List Nat → Checked (List Nat)
  | _, [] => .ok []
  | none, l :: ls => do
    let rest ← spaced gap (some l) ls
    .ok (l :: rest)
  | some last, l :: ls => do
    let least ← sum space32 last gap
    if least ≤ l then
      let rest ← spaced gap (some l) ls
      .ok (l :: rest)
    else
      spaced gap (some last) ls

/-- The condition to lie below a bound. -/
def below (bound l : Nat) : Bool :=
  decide (l < bound)

/-- `Locations.within`, checked. -/
def within (low high : Nat) (locations : List Nat) : Checked (List Nat) :=
  let start := partitionPoint (below low) locations
  window locations start (max (partitionPoint (below high) locations) start)

/-! ### Gaps -/

section Gaps

variable {width : Nat} {locations : List Nat} (ends : ∀ l ∈ locations, l + width < space64)
include ends

theorem gapsBetween_eq_ok (stop cursor : Nat) :
  gapsBetween width stop cursor locations = .ok (Gap.between width stop cursor locations)
  := by
  induction locations generalizing cursor with
  | nil =>
    rw [gapsBetween, Gap.between]
    split
    · rw [difference_eq_ok (by omega), ok_bind]
    · rfl
  | cons l locations ih =>
    rw [List.forall_mem_cons] at ends
    rw [gapsBetween, Gap.between]
    split
    · split
      · rw [sum_eq_ok ends.1, ok_bind, ih ends.2, ok_bind, fieldEnd, Nat.mod_eq_of_lt ends.1]
        dsimp only
        split
        · rw [difference_eq_ok (by omega), ok_bind]
        · rfl
      · rw [difference_eq_ok (by omega), ok_bind]
    · rfl

theorem gaps_eq_ok (region : Region) :
  gaps width region locations = .ok (Gap.ofRegion width region locations)
  := by
  have behind : (locations.mapM fun l => sum space64 l width)
      = .ok (locations.map (fieldEnd width)) := by
    apply mapM_eq_ok
    intro l hl
    rw [sum_eq_ok (ends l hl), fieldEnd, Nat.mod_eq_of_lt (ends l hl)]
  have first : partitionPoint (fun behind => decide (behind ≤ region.offset))
        (locations.map (fieldEnd width))
      = partitionPoint (fun l => decide (fieldEnd width l ≤ region.offset)) locations := by
    simp only [partitionPoint, List.findIdx_map, Function.comp_def]
  have rest : (locations.dropWhile fun l => decide (fieldEnd width l ≤ region.offset)).Sublist
      locations := List.dropWhile_sublist _
  rw [gaps, behind, ok_bind, first,
    window_eq_ok (partitionPoint_le _ _) (Nat.le_refl _), ok_bind, List.take_length,
    drop_partitionPoint, gapsBetween_eq_ok, Gap.ofRegion]
  intro l hl
  apply ends l (rest.subset hl)

end Gaps

/-! ### Spaced locations -/

theorem spaced_some_eq_ok {gap last : Nat} {locations : List Nat} (h : last + gap < space32)
    (ends : ∀ l ∈ locations, l + gap < space32) :
  spaced gap (some last) locations = .ok (Locations.spacedFrom gap (last + gap) locations)
  := by
  induction locations generalizing last with
  | nil => rfl
  | cons l locations ih =>
    rw [List.forall_mem_cons] at ends
    rw [spaced, Locations.spacedFrom, sum_eq_ok h, ok_bind]
    split
    · rw [ih ends.1 ends.2, ok_bind]
    · rw [ih h ends.2]

theorem spaced_eq_ok {gap : Nat} {locations : List Nat}
    (ends : ∀ l ∈ locations, l + gap < space32) :
  spaced gap none locations.mergeSort = .ok (Locations.spaced gap locations)
  := by
  have ends' : ∀ l ∈ locations.mergeSort, l + gap < space32 := by
    intro l hl
    apply ends l (List.mem_mergeSort.mp hl)
  rw [Locations.spaced]
  cases sorted : locations.mergeSort with
  | nil => rfl
  | cons l ls =>
    rw [sorted, List.forall_mem_cons] at ends'
    rw [spaced, Locations.spacedFrom, if_pos (Nat.zero_le l), spaced_some_eq_ok ends'.1 ends'.2,
      ok_bind]

/-! ### Windows -/

/-- The window begins behind the locations below `low`.  Behind these, the locations below
`high` are counted by a difference, which is zero if `high` comes before `low`. -/
theorem within_eq_ok (low high : Nat) (locations : List Nat) :
  within low high locations = .ok (Locations.within low high locations)
  := by
  have weaker {a b : Nat} (h : a ≤ b) : ∀ l, below a l = true → below b l = true := by
    simp only [below, decide_eq_true_iff]
    omega
  have size : max (partitionPoint (below high) locations) (partitionPoint (below low) locations)
        - partitionPoint (below low) locations
      = partitionPoint (below high) (locations.drop (partitionPoint (below low) locations)) := by
    rcases Nat.le_total low high with order | reverse
    · rw [partitionPoint_drop (weaker order),
        Nat.max_eq_left (partitionPoint_mono (weaker order) locations)]
    · have none := partitionPoint_mono (weaker reverse)
        (locations.drop (partitionPoint (below low) locations))
      rw [partitionPoint_drop (fun _ => id), Nat.sub_self] at none
      rw [Nat.max_eq_right (partitionPoint_mono (weaker reverse) locations)]
      omega
  rw [within, window_eq_ok (Nat.le_max_right _ _)
    (Nat.max_le.mpr ⟨partitionPoint_le _ _, partitionPoint_le _ _⟩), List.drop_take, size,
    take_partitionPoint, drop_partitionPoint]
  rfl

end ImageRefs.Checked
