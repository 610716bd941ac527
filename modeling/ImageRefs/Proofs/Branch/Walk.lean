import ImageRefs.Proofs.Branch.Search

/-!
# Walking byte by byte

`Finder.walk` looks for branches at every byte of a list, without passing over bytes and
without a state.  A scanner that accepts the same candidates finds the same branches
(`Scanner.accepted_eq_walk`).  Where no candidate is accepted the walk may be cut short
(`Finder.walk_drop`), and where no accepted instruction stands across an offset it may be cut
in two there (`Finder.walk_split`).
-/

namespace ImageRefs

namespace Finder

variable {f : Finder} {accepts : Candidate → Bool} {position : Nat} {bytes : List UInt8}

/-- The branches in a list of bytes that begins at the offset `position`.  Where a branch
stands and is accepted the walk goes on behind the instruction, and elsewhere at the next
byte. -/
def walk (f : Finder) (accepts : Candidate → Bool) (position : Nat) :
    List UInt8 → List Candidate
  | [] => []
  | byte :: rest =>
    match (f.match? (byte :: rest)).filter fun m => accepts (m.candidate position) with
    | some m =>
      m.candidate position
        :: f.walk accepts (position + m.length) (rest.drop (m.length - 1))
    | none => f.walk accepts (position + 1) rest
termination_by bytes => bytes.length

theorem walk_nil :
  f.walk accepts position [] = []
  := by
  rw [walk]

/-- Where an accepted branch stands the walk goes on behind it. -/
theorem walk_of_accepted {m : BranchMatch} (h : f.match? bytes = some m)
    (accepted : accepts (m.candidate position) = true) :
  f.walk accepts position bytes
    = m.candidate position :: f.walk accepts (position + m.length) (bytes.drop m.length)
  := by
  cases bytes with
  | nil => simp [match?_nil] at h
  | cons byte rest =>
    obtain ⟨positive, long, -⟩ := of_match? h
    have behind : (byte :: rest).drop m.length = rest.drop (m.length - 1) := by
      rw [show m.length = m.length - 1 + 1 by omega, List.drop_succ_cons, Nat.add_sub_cancel]
    rw [walk, h, Option.filter_some, if_pos accepted, behind]

/-- Where no accepted branch stands the walk goes on at the next byte. -/
theorem walk_of_refused
    (refused : ∀ m, f.match? bytes = some m → accepts (m.candidate position) = false) :
  f.walk accepts position bytes = f.walk accepts (position + 1) (bytes.drop 1)
  := by
  cases bytes with
  | nil => rw [List.drop_nil, walk_nil, walk_nil]
  | cons byte rest =>
    have none : ((f.match? (byte :: rest)).filter fun m => accepts (m.candidate position))
        = none := by
      apply Option.filter_eq_none_iff.mpr
      intro m h
      rw [refused m h]
      apply Bool.false_ne_true
    rw [walk, none, List.drop_one, List.tail_cons]

/-- Where no accepted branch stands at the first `count` bytes the walk goes on behind
them. -/
theorem walk_drop (count : Nat)
    (refused : ∀ i < count, ∀ m, f.match? (bytes.drop i) = some m →
      accepts (m.candidate (position + i)) = false) :
  f.walk accepts position bytes = f.walk accepts (position + count) (bytes.drop count)
  := by
  induction count with
  | zero => rfl
  | succ count ih =>
    rw [ih, walk_of_refused, List.drop_drop, Nat.add_assoc]
    · intro m h
      apply refused count _ m h
      omega
    · intro i hi
      apply refused
      omega

/-- Where no accepted branch stands across the offset behind the first `count` bytes the walk
is the walk up to there followed by the walk from there on. -/
theorem walk_split (count : Nat)
    (refused : ∀ i < count, ∀ m, f.match? (bytes.drop i) = some m → count < i + m.length →
      accepts (m.candidate (position + i)) = false) :
  f.walk accepts position bytes
    = f.walk accepts position (bytes.take count)
      ++ f.walk accepts (position + count) (bytes.drop count)
  := by
  induction count using Nat.strongRecOn generalizing position bytes with
  | ind count ih =>
    cases count with
    | zero => rw [List.take_zero, walk_nil, List.nil_append, List.drop_zero, Nat.add_zero]
    | succ count =>
      by_cases here : ∃ m, f.match? bytes = some m ∧ accepts (m.candidate position) = true
      · obtain ⟨m, h, accepted⟩ := here
        obtain ⟨positive, long, -⟩ := of_match? h
        have holds : m.length ≤ count + 1 := by
          apply Nat.le_of_not_lt
          intro cut
          have := refused 0 (by omega) m h (by omega)
          rw [Nat.add_zero, accepted] at this
          cases this
        have front : f.match? (bytes.take (count + 1)) = some m := by
          rw [match?_take, h, Option.filter_some, if_pos (decide_eq_true holds)]
        rw [walk_of_accepted h accepted, walk_of_accepted front accepted, List.cons_append,
          List.drop_take, ih (count + 1 - m.length) (by omega), List.drop_drop,
          show position + m.length + (count + 1 - m.length) = position + (count + 1) by omega,
          show m.length + (count + 1 - m.length) = count + 1 by omega]
        intro i hi n hn cut
        rw [List.drop_drop] at hn
        rw [Nat.add_assoc]
        apply refused (m.length + i) (by omega) n hn (by omega)
      · have refusedHere : ∀ m, f.match? bytes = some m →
            accepts (m.candidate position) = false := by
          intro m h
          apply Bool.eq_false_iff.mpr
          intro accepted
          apply here ⟨m, h, accepted⟩
        have refusedFront : ∀ m, f.match? (bytes.take (count + 1)) = some m →
            accepts (m.candidate position) = false := by
          intro m h
          rw [match?_take] at h
          apply refusedHere m (Option.filter_eq_some_iff.mp h).1
        rw [walk_of_refused refusedHere, walk_of_refused refusedFront, List.drop_take,
          Nat.add_sub_cancel, ih count (by omega), List.drop_drop,
          show position + 1 + count = position + (count + 1) by omega,
          show 1 + count = count + 1 by omega]
        intro i hi n hn cut
        rw [List.drop_drop] at hn
        rw [Nat.add_assoc]
        apply refused (1 + i) (by omega) n hn (by omega)

/-- A branch at the front of a list of bytes lies inside of it, and its displacement comes
behind its first byte and ends it. -/
theorem candidate_bounds {m : BranchMatch} (position : Nat) (h : f.match? bytes = some m) :
  position < (m.candidate position).location
    ∧ (m.candidate position).location + displacementWidth = (m.candidate position).stop
    ∧ (m.candidate position).stop ≤ position + bytes.length
  := by
  obtain ⟨positive, long, fits⟩ := of_match? h
  simp only [BranchMatch.candidate, displacementWidth]
  omega

/-- The branches that a walk finds stand in the bytes and have been accepted. -/
theorem of_mem_walk {c : Candidate} (h : c ∈ f.walk accepts position bytes) :
  position ≤ c.start ∧ c.start < c.location ∧ c.location + displacementWidth = c.stop
    ∧ c.stop ≤ position + bytes.length ∧ accepts c = true
  := by
  fun_induction walk f accepts position bytes with
  | case1 => cases h
  | case2 position byte rest m found ih =>
    obtain ⟨found, accepted⟩ := Option.filter_eq_some_iff.mp found
    obtain ⟨early, long, inside⟩ := candidate_bounds position found
    rcases List.mem_cons.mp h with rfl | behind
    · exact ⟨Nat.le_refl _, early, long, inside, accepted⟩
    · obtain ⟨low, early', long', inside', accepted'⟩ := ih behind
      obtain ⟨-, -, fits⟩ := of_match? found
      rw [List.length_drop] at inside'
      rw [List.length_cons] at fits ⊢
      exact ⟨by omega, early', long', by omega, accepted'⟩
  | case3 position byte rest _ ih =>
    obtain ⟨low, early, long, inside, accepted⟩ := ih h
    rw [List.length_cons]
    exact ⟨by omega, early, long, by omega, accepted⟩

/-- The branches that a walk finds do not overlap, and it finds them in ascending order. -/
theorem pairwise_walk (f : Finder) (accepts : Candidate → Bool) (position : Nat)
    (bytes : List UInt8) :
  (f.walk accepts position bytes).Pairwise fun c d => c.stop ≤ d.start
  := by
  fun_induction walk f accepts position bytes with
  | case1 => apply List.Pairwise.nil
  | case2 position byte rest m found ih =>
    apply List.Pairwise.cons _ ih
    intro d hd
    apply (of_mem_walk hd).1
  | case3 position byte rest _ ih => apply ih

/-- The branches that a walk finds are recognised where they begin. -/
theorem match?_of_mem_walk {c : Candidate} (h : c ∈ f.walk accepts position bytes) :
  ∃ m, f.match? (bytes.drop (c.start - position)) = some m ∧ c = m.candidate c.start
  := by
  fun_induction walk f accepts position bytes with
  | case1 => cases h
  | case2 position byte rest m found ih =>
    have found := (Option.filter_eq_some_iff.mp found).1
    obtain ⟨positive, long, -⟩ := of_match? found
    rcases List.mem_cons.mp h with rfl | behind
    · use m
      rw [show (m.candidate position).start = position from rfl, Nat.sub_self, List.drop_zero]
      use found
    · obtain ⟨low, -⟩ := of_mem_walk behind
      obtain ⟨n, hn, here⟩ := ih behind
      rw [List.drop_drop] at hn
      use n
      rw [show c.start - position = m.length - 1 + (c.start - (position + m.length)) + 1 by omega,
        List.drop_succ_cons]
      use hn
  | case3 position byte rest _ ih =>
    obtain ⟨low, -⟩ := of_mem_walk h
    obtain ⟨n, hn, here⟩ := ih h
    use n
    rw [show c.start - position = c.start - (position + 1) + 1 by omega, List.drop_succ_cons]
    use hn

/-- Whether the branch at the front is accepted depends only on which of the candidates that
stand in the bytes are. -/
theorem filter_match?_congr {accepts' : Candidate → Bool}
    (same : ∀ c : Candidate, position ≤ c.start → c.start < c.location →
      c.location + displacementWidth = c.stop → c.stop ≤ position + bytes.length →
      accepts c = accepts' c) :
  ((f.match? bytes).filter fun m => accepts (m.candidate position))
    = (f.match? bytes).filter fun m => accepts' (m.candidate position)
  := by
  cases h : f.match? bytes with
  | none => rfl
  | some m =>
    obtain ⟨early, long, inside⟩ := candidate_bounds position h
    rw [Option.filter_some, Option.filter_some, same _ (Nat.le_refl _) early long inside]

/-- A walk depends only on which of the candidates that stand in the bytes are accepted. -/
theorem walk_congr {accepts' : Candidate → Bool}
    (same : ∀ c : Candidate, position ≤ c.start → c.start < c.location →
      c.location + displacementWidth = c.stop → c.stop ≤ position + bytes.length →
      accepts c = accepts' c) :
  f.walk accepts position bytes = f.walk accepts' position bytes
  := by
  fun_induction walk f accepts position bytes with
  | case1 => rw [walk_nil]
  | case2 position byte rest m found ih =>
    obtain ⟨-, -, fits⟩ := of_match? (Option.filter_eq_some_iff.mp found).1
    rw [List.length_cons] at fits
    rw [walk, ← filter_match?_congr same, found, ih]
    intro c low early long inside
    rw [List.length_drop] at inside
    apply same c (by omega) early long
    rw [List.length_cons]
    omega
  | case3 position byte rest refused ih =>
    rw [walk, ← filter_match?_congr same, refused, ih]
    intro c low early long inside
    apply same c (by omega) early long
    rw [List.length_cons]
    omega

/-! ### Walks and searches -/

/-- A walk finds nothing where a search finds nothing. -/
theorem walk_of_seek?_eq_none (h : f.seek? position bytes = none) :
  f.walk accepts position bytes = []
  := by
  rw [walk_drop bytes.length, List.drop_length, walk_nil]
  intro i _ m hm
  rw [match?_of_seek?_eq_none h] at hm
  cases hm

/-- A walk may begin at the branch that a search finds. -/
theorem walk_of_seek? {s : Sighting} (h : f.seek? position bytes = some s) :
  f.walk accepts position bytes = f.walk accepts s.position s.rest
  := by
  obtain ⟨low, rest, -, first⟩ := seek?_eq_some_iff.mp h
  rw [walk_drop (s.position - position), Nat.add_sub_cancel' low, ← rest]
  intro i hi m hm
  rw [first i (Nat.add_lt_of_lt_sub' hi)] at hm
  cases hm

end Finder

namespace Scanner

variable {s t : Scanner} {c : Candidate}

theorem finder_accept (s : Scanner) :
  s.accept.finder = s.finder
  := by
  rw [accept]
  cases s.pending <;> rfl

/-- Nothing is left to be accepted after an acceptance. -/
theorem pending_accept (s : Scanner) :
  s.accept.pending = none
  := by
  cases h : s.pending with
  | none => rw [accept_of_pending_eq_none h, h]
  | some p => rw [accept_of_pending_eq_some h, advance]

/-- The answer of a scanner is the first branch from where it searches on. -/
theorem fst_next (s : Scanner) :
  s.next.1
    = (s.finder.seek? s.settle.cursor s.settle.rest).map fun p => p.found.candidate p.position
  := rfl

/-- A scanner that proposes nothing has nothing to propose. -/
theorem seek?_of_next_eq_none (h : s.next = (none, t)) :
  s.finder.seek? s.settle.cursor s.settle.rest = none
  := by
  apply Option.map_eq_none_iff.mp
  rw [← fst_next, h]

/-- What a scanner has proposed is the first branch from where it has searched on. -/
theorem seek?_of_next (h : s.next = (some c, t)) :
  ∃ p, s.finder.seek? s.settle.cursor s.settle.rest = some p
    ∧ c = p.found.candidate p.position ∧ t.finder = s.finder ∧ t.pending = some p
  := by
  rw [next, Prod.mk.injEq] at h
  obtain ⟨answer, rfl⟩ := h
  obtain ⟨p, found, rfl⟩ := Option.map_eq_some_iff.mp answer
  use p, found, rfl, rfl, found

/-- The accepted proposals of a scanner are the branches that walking byte by byte finds from
where it searches on. -/
theorem accepted_eq_walk (accepts : Candidate → Bool) (s : Scanner) :
  s.accepted accepts = s.finder.walk accepts s.settle.cursor s.settle.rest
  := by
  fun_induction accepted accepts s with
  | case1 s t h => rw [Finder.walk_of_seek?_eq_none (seek?_of_next_eq_none h)]
  | case2 s c t h accepted ih =>
    obtain ⟨p, found, rfl, finder, pending⟩ := seek?_of_next h
    rw [ih, Finder.walk_of_seek? found,
      Finder.walk_of_accepted (Finder.of_seek? found).1 accepted, finder_accept, finder,
      settle_of_pending_eq_none t.pending_accept, accept_of_pending_eq_some pending]
    rfl
  | case3 s c t h refused ih =>
    obtain ⟨p, found, rfl, finder, pending⟩ := seek?_of_next h
    have refusedHere : ∀ m, s.finder.match? p.rest = some m →
        accepts (m.candidate p.position) = false := by
      intro m hm
      rw [(Finder.of_seek? found).1] at hm
      cases hm
      apply Bool.eq_false_iff.mpr refused
    rw [Finder.walk_of_seek? found, Finder.walk_of_refused refusedHere, ih, finder,
      settle_of_pending_eq_some pending]
    rfl

end Scanner

end ImageRefs
