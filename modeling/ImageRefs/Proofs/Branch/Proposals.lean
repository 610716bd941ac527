import ImageRefs.Proofs.Branch.Gap
import ImageRefs.Proofs.Branch.Turns
import Mathlib.Data.List.Chain

/-!
# The proposals of a scanner

Each answer of a scanner is the first branch of its region from where the search goes on after
the turn before: from behind an instruction that has been accepted, or from the byte behind the
start of one that has not (`Scanner.Stands.proceeds`).  So, under any calls
(`Scanner.orderly_turns`):

* the proposals lie in the region and ascend, and one that is accepted ends before the next one
  begins;
* no proposal follows an answer without one;
* there are at most as many proposals as the region has bytes.
-/

namespace ImageRefs

/-! ### Where a search goes on -/

/-- The branch that is recognised at an offset of a region, in the part of the region that lies
inside of the buffer. -/
def Finder.matchIn? (f : Finder) (data : Bytes) (region : Region) (offset : Nat) :
    Option BranchMatch :=
  f.match? (data.span offset (min region.stop data.size))

/-- The answer of a search for the first branch of a region from the offset `low` on: the branch
is recognised where it begins, and none is recognised before, or there is no answer and none is
recognised anywhere. -/
def Finder.IsFirst (f : Finder) (data : Bytes) (region : Region) (low : Nat) :
    (answer : Option Candidate) → Prop
  | some c => low ≤ c.start
    ∧ (∃ m, f.matchIn? data region c.start = some m ∧ c = m.candidate c.start)
    ∧ ∀ offset, low ≤ offset → offset < c.start → f.matchIn? data region offset = none
  | none => ∀ offset, low ≤ offset → f.matchIn? data region offset = none

section

variable {f : Finder} {data : Bytes} {region : Region} {low : Nat} {c : Candidate}

/-- A search for a branch finds the first one. -/
theorem Finder.isFirst_seek? (f : Finder) (data : Bytes) (region : Region) (low : Nat) :
  f.IsFirst data region low
    ((f.seek? low (data.span low (min region.stop data.size))).map fun s =>
      s.found.candidate s.position)
  := by
  have there {offset : Nat} (h : low ≤ offset) :
      f.matchIn? data region offset
        = f.match? ((data.span low (min region.stop data.size)).drop (offset - low)) := by
    rw [matchIn?, Bytes.drop_span, Nat.add_sub_cancel' h]
  cases h : f.seek? low (data.span low (min region.stop data.size)) with
  | none =>
    intro offset later
    rw [there later, match?_of_seek?_eq_none h]
  | some s =>
    obtain ⟨later, rest, found, first⟩ := seek?_eq_some_iff.mp h
    use later
    constructor
    · use s.found
      rw [← found, rest]
      exact ⟨there later, rfl⟩
    · intro offset between before
      rw [there between]
      apply first
      rw [Nat.add_sub_cancel' between]
      apply before

/-- A branch of a region has its displacement behind its first byte and at its end, and lies in
the part of the region that lies inside of the buffer. -/
theorem Finder.IsFirst.bounds (h : f.IsFirst data region low (some c)) :
  low ≤ c.start ∧ c.start < c.location ∧ c.location + displacementWidth = c.stop
    ∧ c.stop ≤ min region.stop data.size
  := by
  obtain ⟨later, ⟨m, found, here⟩, -⟩ := h
  obtain ⟨early, long, inside⟩ := candidate_bounds c.start found
  rw [← here, Bytes.length_span] at inside
  rw [← here] at early long
  use later, early, long
  omega

end

/-- Where a search goes on after a turn that has begun at the offset `low`: behind a proposal that
has been accepted, at the byte behind the start of one that has not, and where it was if there was
none. -/
def Turn.resume (low : Nat) (t : Turn) : Nat :=
  match t.answer with
  | some c => if t.accepted then c.stop else c.start + 1
  | none => low

/-- Turns proceed from the offset `low` on if each answer is the first branch from where the
search goes on after the turn before. -/
inductive Proceeds (f : Finder) (data : Bytes) (region : Region) :
    (low : Nat) → List Turn → Prop
  | nil {low : Nat} : Proceeds f data region low []
  | cons {low : Nat} {t : Turn} {turns : List Turn}
      (first : f.IsFirst data region low t.answer)
      (later : Proceeds f data region (t.resume low) turns) :
      Proceeds f data region low (t :: turns)

namespace Scanner

variable {f : Finder} {data : Bytes} {region : Region} {low : Nat} {s : Scanner}

/-- A scanner stands in a region at the offset `low` if a search from its cursor finds what one
from there finds, and if it has the bytes of the region before it from an open proposal on.  The
cursor need not be `low`, since the last search may have come further. -/
structure Stands (f : Finder) (data : Bytes) (region : Region) (low : Nat) (s : Scanner) :
    Prop where
  finder : s.finder = f
  seek? : f.seek? s.cursor s.rest = f.seek? low (data.span low (min region.stop data.size))
  rest : ∀ p, s.pending = some p → p.rest = data.span p.position (min region.stop data.size)

theorem stands_ofRegion (f : Finder) (data : Bytes) (region : Region) :
  (ofRegion f data region).Stands f data region region.offset
  := by
  constructor
  case finder => rfl
  case rest => nofun
  case seek? =>
    rw [ofRegion, Region.clamped, ← Bytes.span]
    dsimp only
    rcases Nat.le_total region.offset (min region.stop data.size) with order | beyond
    · rw [Nat.min_eq_left order]
    · have nothing (place : Nat) : f.seek? place [] = none :=
        Finder.seek?_of_nextCandidate?_eq_none rfl
      rw [Bytes.span_of_le data beyond, nothing, nothing]

/-- A scanner that moves on in what it has proposed stands where it has come to. -/
theorem Stands.advance {p : Sighting} (h : s.Stands f data region low)
    (pending : s.pending = some p) (count : Nat) :
  (s.advance p count).Stands f data region (p.position + count)
  := by
  constructor
  case finder => apply h.finder
  case rest => nofun
  case seek? => rw [Scanner.advance, h.rest p pending, Bytes.drop_span]

/-- Where a scanner that stands at `low` searches when it is asked, with or without an acceptance
before. -/
def lookout (s : Scanner) (low : Nat) (accepted : Bool) : Nat :=
  match s.pending with
  | none => low
  | some p => p.position + if accepted then p.found.length else 1

theorem lookout_of_pending_eq_none (h : s.pending = none) (accepted : Bool) :
  s.lookout low accepted = low
  := by
  rw [lookout, h]

theorem lookout_of_pending_eq_some {p : Sighting} (h : s.pending = some p) (accepted : Bool) :
  s.lookout low accepted = p.position + if accepted then p.found.length else 1
  := by
  rw [lookout, h]

/-- A scanner that is told that its proposal is accepted stands behind it. -/
theorem Stands.accept (h : s.Stands f data region low) :
  s.accept.Stands f data region (s.lookout low true)
  := by
  cases pending : s.pending with
  | none =>
    rw [accept_of_pending_eq_none pending, lookout_of_pending_eq_none pending]
    apply h
  | some p =>
    rw [accept_of_pending_eq_some pending, lookout_of_pending_eq_some pending]
    apply h.advance pending

/-- A scanner whose proposal counts as refused stands behind the first byte of it. -/
theorem Stands.settle (h : s.Stands f data region low) :
  s.settle.Stands f data region (s.lookout low false)
  := by
  cases pending : s.pending with
  | none =>
    rw [settle_of_pending_eq_none pending, lookout_of_pending_eq_none pending]
    apply h
  | some p =>
    rw [settle_of_pending_eq_some pending, lookout_of_pending_eq_some pending]
    apply h.advance pending

/-- A scanner that is asked for a proposal answers with the first branch from where it searches, and
stands there again. -/
theorem Stands.next (h : s.Stands f data region low) :
  f.IsFirst data region (s.lookout low false) s.next.1
    ∧ s.next.2.Stands f data region (s.lookout low false)
  := by
  have found := h.settle.seek?
  obtain rfl := h.finder
  constructor
  · rw [fst_next, found]
    apply Finder.isFirst_seek?
  · constructor
    case finder => rfl
    case seek? =>
      -- The cursor has moved on only over bytes at which no branch stands.
      apply (Finder.seek?_search _ _ _).trans found
    case rest =>
      intro p pending
      obtain ⟨low, rest⟩ := Finder.rest_of_seek? (found.symm.trans pending)
      rw [rest, Bytes.drop_span, Nat.add_sub_cancel' low]

/-- A scanner that has been asked searches next where the search goes on after the turn. -/
theorem lookout_next (s : Scanner) (low : Nat) (accepted : Bool) :
  s.next.2.lookout low accepted = Turn.resume low ⟨s.next.1, accepted⟩
  := by
  rw [Turn.resume, fst_next]
  cases found : s.finder.seek? s.settle.cursor s.settle.rest with
  | none => apply lookout_of_pending_eq_none found
  | some p =>
    rw [lookout_of_pending_eq_some found]
    cases accepted <;> rfl

/-- The turns of a scanner that stands in a region proceed from where it searches. -/
theorem Stands.proceeds (h : s.Stands f data region low) (calls : List ScanCall) :
  Proceeds f data region (s.lookout low (calls.head? = some .accept)) (s.turns calls)
  := by
  induction calls generalizing s low with
  | nil => apply Proceeds.nil
  | cons call calls ih =>
    cases call with
    | next =>
      obtain ⟨first, stands⟩ := h.next
      rw [turns]
      apply Proceeds.cons first
      rw [← lookout_next]
      apply ih stands
    | accept =>
      rw [turns]
      have later := ih h.accept
      rw [lookout_of_pending_eq_none s.pending_accept] at later
      apply later

end Scanner

/-! ### What the turns show -/

namespace Proceeds

variable {f : Finder} {data : Bytes} {region : Region} {low : Nat} {turns : List Turn} {t : Turn}

/-- A search does not go back. -/
theorem le_resume (first : f.IsFirst data region low t.answer) :
  low ≤ t.resume low
  := by
  rw [Turn.resume]
  cases answer : t.answer with
  | none => apply Nat.le_refl
  | some c =>
    rw [answer] at first
    obtain ⟨later, early, long, -⟩ := first.bounds
    dsimp only
    split <;> omega

/-- Each answer is the first branch from some offset that the search has come to. -/
theorem exists_isFirst (h : Proceeds f data region low turns) (ht : t ∈ turns) :
  ∃ place, low ≤ place ∧ f.IsFirst data region place t.answer
  := by
  induction h with
  | nil => cases ht
  | @cons low u turns first _ ih =>
    rcases List.mem_cons.mp ht with rfl | later
    · use low, Nat.le_refl low
    · obtain ⟨place, beyond, here⟩ := ih later
      use place, Nat.le_trans (le_resume first) beyond

/-- The first answer is the first branch from where the turns proceed. -/
theorem isFirst_head (h : Proceeds f data region low turns) (ht : turns.head? = some t) :
  f.IsFirst data region low t.answer
  := by
  cases h with
  | nil => cases ht
  | cons first _ =>
    cases ht
    apply first

/-- The answer after a proposal is the first branch behind it if it has been accepted, and the
first branch from the byte behind its start if it has not. -/
theorem isChain (h : Proceeds f data region low turns) :
  turns.IsChain fun t u => ∀ c, t.answer = some c →
    f.IsFirst data region (if t.accepted then c.stop else c.start + 1) u.answer
  := by
  induction h with
  | nil => apply List.isChain_nil
  | @cons low t turns first later ih =>
    cases turns with
    | nil => apply List.isChain_singleton
    | cons u turns =>
      apply List.isChain_cons_cons.mpr
      use fun c answer => ?_, ih
      have next := later.isFirst_head rfl
      rw [Turn.resume, answer] at next
      apply next

/-- Proposals ascend, and one that is accepted ends before the later ones begin. -/
theorem pairwise_ascending (h : Proceeds f data region low turns) :
  turns.Pairwise fun t u => ∀ c d, t.answer = some c → u.answer = some d →
    c.start < d.start ∧ (t.accepted = true → c.stop ≤ d.start)
  := by
  induction h with
  | nil => apply List.Pairwise.nil
  | @cons low t turns first later ih =>
    apply List.Pairwise.cons _ ih
    intro u hu c d hc hd
    obtain ⟨place, beyond, here⟩ := later.exists_isFirst hu
    rw [hc] at first
    rw [hd] at here
    rw [Turn.resume, hc] at beyond
    obtain ⟨-, early, long, -⟩ := first.bounds
    obtain ⟨behind, -⟩ := here.bounds
    dsimp only at beyond
    split at beyond
    · constructor <;> omega
    · next refused =>
      use by omega
      intro accepted
      apply absurd accepted refused

/-- No proposal follows an answer without one. -/
theorem pairwise_ended (h : Proceeds f data region low turns) :
  turns.Pairwise fun t u => t.answer = none → u.answer = none
  := by
  induction h with
  | nil => apply List.Pairwise.nil
  | @cons low t turns first later ih =>
    apply List.Pairwise.cons _ ih
    intro u hu ht
    obtain ⟨place, beyond, here⟩ := later.exists_isFirst hu
    rw [Turn.resume, ht] at beyond
    rw [ht] at first
    cases hd : u.answer with
    | none => rfl
    | some d =>
      rw [hd] at here
      obtain ⟨behind, ⟨m, found, -⟩, -⟩ := here
      rw [first d.start (Nat.le_trans beyond behind)] at found
      cases found

/-- There are at most as many proposals as bytes from where the turns proceed. -/
theorem length_filterMap_le (h : Proceeds f data region low turns) :
  (turns.filterMap Turn.answer).length ≤ min region.stop data.size - low
  := by
  induction h with
  | nil => apply Nat.zero_le
  | @cons low t turns first later ih =>
    cases answer : t.answer with
    | none =>
      rw [List.filterMap_cons_none answer]
      have beyond := le_resume first
      omega
    | some c =>
      rw [List.filterMap_cons_some answer, List.length_cons]
      rw [answer] at first
      obtain ⟨behind, early, long, inside⟩ := first.bounds
      have next : c.start + 1 ≤ t.resume low := by
        rw [Turn.resume, answer]
        dsimp only
        split <;> omega
      omega

end Proceeds

namespace Scanner

/-- Turns in a region are orderly. -/
structure Orderly (f : Finder) (data : Bytes) (region : Region) (turns : List Turn) : Prop where
  /-- A proposal is recognised where it begins, and lies in the part of the region that lies
  inside of the buffer, with the displacement behind its first byte and at its end. -/
  located : ∀ t ∈ turns, ∀ c, t.answer = some c →
    region.offset ≤ c.start ∧ c.start < c.location ∧ c.location + displacementWidth = c.stop
      ∧ c.stop ≤ min region.stop data.size
      ∧ ∃ m, f.matchIn? data region c.start = some m ∧ c = m.candidate c.start
  /-- The first answer is the first branch of the region. -/
  first : ∀ t, turns.head? = some t → f.IsFirst data region region.offset t.answer
  /-- The answer after a proposal is the first branch behind it if it has been accepted, and the
  first branch from the byte behind its start if it has not. -/
  next : turns.IsChain fun t u => ∀ c, t.answer = some c →
    f.IsFirst data region (if t.accepted then c.stop else c.start + 1) u.answer
  /-- Proposals ascend, and one that is accepted ends before the later ones begin. -/
  ascending : turns.Pairwise fun t u => ∀ c d, t.answer = some c → u.answer = some d →
    c.start < d.start ∧ (t.accepted = true → c.stop ≤ d.start)
  /-- No proposal follows an answer without one. -/
  ended : turns.Pairwise fun t u => t.answer = none → u.answer = none
  /-- There are at most as many proposals as the part of the region that lies inside of the
  buffer has bytes. -/
  bounded : (turns.filterMap Turn.answer).length ≤ (region.clamped data).length

/-- The turns of a scanner of a region, which need not have an end or lie inside of the buffer,
are orderly whatever calls it is given. -/
theorem orderly_turns (f : Finder) (data : Bytes) (region : Region) (calls : List ScanCall) :
  Orderly f data region ((ofRegion f data region).turns calls)
  := by
  have proceeds := (stands_ofRegion f data region).proceeds calls
  rw [lookout_of_pending_eq_none rfl] at proceeds
  constructor
  case located =>
    intro t ht c answer
    obtain ⟨place, beyond, here⟩ := proceeds.exists_isFirst ht
    rw [answer] at here
    obtain ⟨behind, early, long, inside⟩ := here.bounds
    obtain ⟨-, found, -⟩ := here
    exact ⟨Nat.le_trans beyond behind, early, long, inside, found⟩
  case first =>
    intro t ht
    apply proceeds.isFirst_head ht
  case next => apply proceeds.isChain
  case ascending => apply proceeds.pairwise_ascending
  case ended => apply proceeds.pairwise_ended
  case bounded =>
    have size : (region.clamped data).length = min region.stop data.size - region.offset := by
      rw [Region.clamped, ← Bytes.span, Bytes.length_span]
      omega
    rw [size]
    apply proceeds.length_filterMap_le

/-- Of two branches that overlap the first is refused and the second accepted, and calls that
accept when nothing has been proposed do nothing.  So the second is the first branch from the byte
behind the start of the first, and none comes behind it. -/
theorem orderly_turns_overlapping :
  (ofRegion (Finder.ofWidth .bits32 false) overlapping ⟨0, 100⟩).turns
      [.accept, .next, .next, .accept, .accept, .next, .accept]
    = [⟨some ⟨1, 2, 6, true⟩, false⟩, ⟨some ⟨2, 3, 7, true⟩, true⟩, ⟨none, true⟩]
    ∧ (Finder.ofWidth .bits32 false).IsFirst overlapping ⟨0, 100⟩ 0 (some ⟨1, 2, 6, true⟩)
    ∧ (Finder.ofWidth .bits32 false).IsFirst overlapping ⟨0, 100⟩ 2 (some ⟨2, 3, 7, true⟩)
    ∧ (Finder.ofWidth .bits32 false).IsFirst overlapping ⟨0, 100⟩ 7 none
  := by
  have orderly := orderly_turns (Finder.ofWidth .bits32 false) overlapping ⟨0, 100⟩
    [.accept, .next, .next, .accept, .accept, .next, .accept]
  have turns : (ofRegion (Finder.ofWidth .bits32 false) overlapping ⟨0, 100⟩).turns
      [.accept, .next, .next, .accept, .accept, .next, .accept]
      = [⟨some ⟨1, 2, 6, true⟩, false⟩, ⟨some ⟨2, 3, 7, true⟩, true⟩, ⟨none, true⟩] := by
    decide +kernel
  rw [turns] at orderly
  obtain ⟨second, behind⟩ := List.isChain_cons_cons.mp orderly.next
  obtain ⟨third, -⟩ := List.isChain_cons_cons.mp behind
  exact ⟨turns, orderly.first _ rfl, second _ rfl, third _ rfl⟩

end Scanner

end ImageRefs
