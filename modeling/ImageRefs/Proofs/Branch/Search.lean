import ImageRefs.Branch.Scanner
import ImageRefs.Proofs.Branch.Form

/-!
# Searches for the first branch

A search finds the first branch in a list of bytes, and `Finder.seek?_eq_some_iff` says what
that is without a search: a branch is recognised there, and none at a byte before.  So what a
search finds depends only on which branches are recognised, and not on the bytes that it passes
over (`Finder.seek?_congr`).  Where it comes to does depend on these, but from there it finds the
same again (`Finder.seek?_search`).
-/

namespace ImageRefs.Finder

variable {f g : Finder} {position : Nat} {bytes : List UInt8}

/-! ### One step of a search -/

/-- A search finds nothing if there is no byte to look at. -/
theorem seek?_of_nextCandidate?_eq_none (h : f.nextCandidate? bytes = none) :
  f.seek? position bytes = none
  := by
  rw [seek?, search]
  split
  · rfl
  · next found => cases found.symm.trans h

/-- A search finds the branch at the byte that it looks at first, or goes on behind this. -/
theorem seek?_of_nextCandidate? {skipped : Nat} (h : f.nextCandidate? bytes = some skipped) :
  f.seek? position bytes
    = match f.match? (bytes.drop skipped) with
      | some m => some ⟨position + skipped, bytes.drop skipped, m⟩
      | none => f.seek? (position + skipped + 1) (bytes.drop (skipped + 1))
  := by
  rw [seek?, search]
  split
  · next none => cases none.symm.trans h
  · next found =>
    cases found.symm.trans h
    cases f.match? (bytes.drop skipped) <;> rfl

/-! ### The first branch -/

/-- What follows where a branch has been sighted are the bytes from there on. -/
theorem rest_of_seek? {s : Sighting} (h : f.seek? position bytes = some s) :
  position ≤ s.position ∧ s.rest = bytes.drop (s.position - position)
  := by
  rw [seek?] at h
  fun_induction search f position bytes with
  | case1 => cases h
  | case2 position bytes skipped =>
    cases h
    use Nat.le_add_right _ _
    rw [Nat.add_sub_cancel_left]
  | case3 position bytes skipped _ _ ih =>
    obtain ⟨low, rest⟩ := ih h
    rw [List.drop_drop] at rest
    rw [rest, show skipped + 1 + (s.position - (position + skipped + 1)) = s.position - position
      by omega]
    use by omega

/-- No branch stands before the one that a search finds, and none anywhere if it finds none. -/
theorem match?_of_before_seek? {i : Nat}
    (before : ∀ s, f.seek? position bytes = some s → position + i < s.position) :
  f.match? (bytes.drop i) = none
  := by
  rw [seek?] at before
  fun_induction search f position bytes generalizing i with
  | case1 position bytes hnone => apply match?_of_nextCandidate?_eq_none i hnone
  | case2 position bytes skipped hskipped m hm =>
    apply match?_of_nextCandidate? hskipped
    apply Nat.lt_of_add_lt_add_left (before _ rfl)
  | case3 position bytes skipped hskipped hnone ih =>
    rcases Nat.lt_trichotomy i skipped with passed | rfl | behind
    · apply match?_of_nextCandidate? hskipped passed
    · apply hnone
    · have later : f.match? ((bytes.drop (skipped + 1)).drop (i - (skipped + 1))) = none := by
        apply ih
        intro s h
        have := before s h
        omega
      rw [List.drop_drop, Nat.add_sub_cancel' behind] at later
      apply later

/-- No branch stands anywhere if a search finds none. -/
theorem match?_of_seek?_eq_none (h : f.seek? position bytes = none) (i : Nat) :
  f.match? (bytes.drop i) = none
  := by
  have before : ∀ s, f.seek? position bytes = some s → position + i < s.position := by
    intro s found
    cases h.symm.trans found
  apply match?_of_before_seek? before

/-- A search finds a branch exactly if it is recognised where it has been sighted and none is
recognised at a byte before. -/
theorem seek?_eq_some_iff {s : Sighting} :
  f.seek? position bytes = some s
    ↔ position ≤ s.position ∧ s.rest = bytes.drop (s.position - position)
      ∧ f.match? s.rest = some s.found
      ∧ ∀ i, position + i < s.position → f.match? (bytes.drop i) = none
  := by
  constructor
  · intro h
    obtain ⟨low, rest⟩ := rest_of_seek? h
    use low, rest, (of_seek? h).1
    intro i before
    apply match?_of_before_seek?
    intro t ht
    cases h.symm.trans ht
    apply before
  · rintro ⟨low, rest, found, first⟩
    cases h : f.seek? position bytes with
    | none =>
      rw [rest, match?_of_seek?_eq_none h] at found
      cases found
    | some t =>
      obtain ⟨low', rest'⟩ := rest_of_seek? h
      have found' := (of_seek? h).1
      have here : t.position = s.position := by
        rcases Nat.lt_trichotomy t.position s.position with before | here | behind
        · rw [rest', first _ (by omega)] at found'
          cases found'
        · apply here
        · have none : f.match? (bytes.drop (s.position - position)) = none := by
            apply match?_of_before_seek?
            intro u hu
            cases h.symm.trans hu
            omega
          rw [rest, none] at found
          cases found
      rw [here, ← rest] at rest'
      rw [rest', found] at found'
      cases s
      cases t
      cases here
      cases rest'
      cases found'
      rfl

/-- What a search finds depends only on which branches are recognised. -/
theorem seek?_congr (same : ∀ bytes, f.match? bytes = g.match? bytes) :
  f.seek? position bytes = g.seek? position bytes
  := by
  apply Option.ext
  intro s
  rw [seek?_eq_some_iff, seek?_eq_some_iff]
  simp only [same]

/-- A search that goes on from where it has come to finds the same again. -/
theorem seek?_search (f : Finder) (position : Nat) (bytes : List UInt8) :
  f.seek? (f.search position bytes).cursor (f.search position bytes).rest
    = (f.search position bytes).sighting
  := by
  fun_induction search f position bytes with
  | case1 position bytes hnone => apply seek?_of_nextCandidate?_eq_none hnone
  | case2 position bytes skipped hskipped m hm => rw [seek?_of_nextCandidate? hskipped, hm]
  | case3 position bytes skipped hskipped hnone ih => apply ih

end ImageRefs.Finder
