import ImageRefs.Proofs.Branch.Walk

/-!
# The turns of a scanner

A scanner is asked for proposals, and is told which of them are accepted, in any order of calls.
Its turns are the answers to the calls that ask, each with whether a call accepts before the
next one asks.

Passing over bytes does not show in the turns (`Scanner.turns_ofRegion_plain`).  A scanner that
looks at every byte has its cursor at other places, since a search leaves it before the last bytes
that it has passed over.  But both scanners have the same proposal open after each call, and find
the same branch when they are asked (`Scanner.Alike`).
-/

namespace ImageRefs

/-- A call of a scanner. -/
inductive ScanCall where
  /-- Asks for the next proposal. -/
  | next
  /-- Accepts the last proposal. -/
  | accept
  deriving DecidableEq, Repr

/-- A turn of a scanner: its answer when it is asked for a proposal, and whether a call accepts
before it is asked again. -/
structure Turn where
  answer : Option Candidate
  accepted : Bool
  deriving DecidableEq, Repr

/-- The turns of a scanner under a list of calls. -/
def Scanner.turns (s : Scanner) : List ScanCall → List Turn
  | [] => []
  | .next :: calls => ⟨s.next.1, decide (calls.head? = some .accept)⟩ :: s.next.2.turns calls
  | .accept :: calls => s.accept.turns calls

/-! ### Passing over bytes -/

/-- Without passing over bytes a scan looks at the first byte of any that there are. -/
theorem Finder.nextCandidate?_plain (f : Finder) (bytes : List UInt8) :
  f.plain.nextCandidate? bytes = if bytes = [] then none else some 0
  := by
  cases bytes with
  | nil => rfl
  | cons byte bytes =>
    rw [nextCandidate?, List.findIdx?_cons]
    rfl

/-- A branch does not stand before the byte that a scan looks at. -/
theorem Finder.nextCandidate?_le {f : Finder} {bytes : List UInt8} {i : Nat}
    (h : f.match? (bytes.drop i) ≠ none) :
  ∃ skipped ≤ i, f.nextCandidate? bytes = some skipped
  := by
  cases next : f.nextCandidate? bytes with
  | none => exact absurd (match?_of_nextCandidate?_eq_none i next) h
  | some skipped =>
    refine ⟨skipped, ?_, rfl⟩
    apply Nat.le_of_not_lt
    intro passed
    apply h (match?_of_nextCandidate? next passed)

namespace Scanner

variable {s t : Scanner}

/-- Two scanners are alike if they recognise the same branches, have the same proposal open and
find the same branch next.  Their cursors may differ. -/
structure Alike (s t : Scanner) : Prop where
  match? : ∀ bytes, s.finder.match? bytes = t.finder.match? bytes
  pending : s.pending = t.pending
  seek? : s.finder.seek? s.settle.cursor s.settle.rest
    = t.finder.seek? t.settle.cursor t.settle.rest

/-- Alike scanners answer alike. -/
theorem Alike.answer (h : s.Alike t) :
  s.next.1 = t.next.1
  := by
  rw [fst_next, fst_next, h.seek?]

/-- A scanner that has found nothing finds nothing from where its search has come to. -/
theorem seek?_next_eq_none (h : s.finder.seek? s.settle.cursor s.settle.rest = none) :
  s.next.2.finder.seek? s.next.2.settle.cursor s.next.2.settle.rest = none
  := by
  rw [settle_of_pending_eq_none h]
  apply (Finder.seek?_search _ _ _).trans h

/-- Alike scanners are alike after they have been asked. -/
theorem Alike.next (h : s.Alike t) :
  s.next.2.Alike t.next.2
  := by
  use h.match?, h.seek?
  -- What has been found decides where both go on; if it is nothing, each goes on at its own cursor.
  cases found : s.finder.seek? s.settle.cursor s.settle.rest with
  | none => rw [seek?_next_eq_none found, seek?_next_eq_none (h.seek?.symm.trans found)]
  | some p =>
    rw [settle_of_pending_eq_some found, settle_of_pending_eq_some (h.seek?.symm.trans found)]
    apply Finder.seek?_congr h.match?

/-- Alike scanners are alike after they have been told that their proposal is accepted. -/
theorem Alike.accept (h : s.Alike t) :
  s.accept.Alike t.accept
  := by
  cases pending : s.pending with
  | none =>
    rw [accept_of_pending_eq_none pending, accept_of_pending_eq_none (h.pending.symm.trans pending)]
    apply h
  | some p =>
    rw [accept_of_pending_eq_some pending, accept_of_pending_eq_some (h.pending.symm.trans pending)]
    use h.match?, rfl
    apply Finder.seek?_congr h.match?

/-- Alike scanners have the same turns under any calls. -/
theorem Alike.turns (h : s.Alike t) (calls : List ScanCall) :
  s.turns calls = t.turns calls
  := by
  induction calls generalizing s t with
  | nil => rfl
  | cons call calls ih =>
    cases call with
    | next => rw [Scanner.turns, Scanner.turns, h.answer, ih h.next]
    | accept => rw [Scanner.turns, Scanner.turns, ih h.accept]

/-- A scanner of a region is alike with and without passing over bytes. -/
theorem alike_plain (f : Finder) (data : Bytes) (region : Region) :
  (ofRegion f data region).Alike (ofRegion f.plain data region)
  := by
  have same (bytes : List UInt8) : f.match? bytes = f.plain.match? bytes := rfl
  use same, rfl
  apply Finder.seek?_congr same

/-- A scanner of a region, which need not have an end or lie inside of the buffer, answers any
calls as it does without passing over bytes.

* The turns, and so the answers, are the same.
* Without passing over bytes the same branches are recognised, and a scan looks at the first byte
  of any that there are.
* No byte at which a branch stands is passed over. -/
theorem turns_ofRegion_plain (f : Finder) (data : Bytes) (region : Region)
    (calls : List ScanCall) :
  (ofRegion f data region).turns calls = (ofRegion f.plain data region).turns calls
    ∧ (∀ bytes, f.plain.match? bytes = f.match? bytes
      ∧ f.plain.nextCandidate? bytes = if bytes = [] then none else some 0)
    ∧ ∀ bytes i, f.match? (bytes.drop i) ≠ none →
      ∃ skipped ≤ i, f.nextCandidate? bytes = some skipped
  := by
  and_intros
  · apply (alike_plain f data region).turns
  · intro bytes
    exact ⟨rfl, f.nextCandidate?_plain bytes⟩
  · intro bytes i
    apply Finder.nextCandidate?_le

/-- Two branches that overlap, between bytes at which none stands. -/
def overlapping : Bytes := #[0x90, 0xE8, 0xE9, 0, 0, 0, 0, 0x90, 0x90]

/-- A scanner that looks at every byte proposes both of two branches that overlap if the first is
refused, and a search does not pass over the first.  The call is found behind one byte, at which no
branch stands. -/
theorem turns_ofRegion_plain_overlapping :
  (ofRegion (Finder.ofWidth .bits32 false).plain overlapping ⟨0, 100⟩).turns
      [.accept, .next, .next, .accept, .next, .next]
    = [⟨some ⟨1, 2, 6, true⟩, false⟩, ⟨some ⟨2, 3, 7, true⟩, true⟩, ⟨none, false⟩, ⟨none, false⟩]
    ∧ (Finder.ofWidth .bits32 false).match? (overlapping.toList.drop 1) ≠ none
    ∧ ∃ skipped ≤ 1,
      (Finder.ofWidth .bits32 false).nextCandidate? overlapping.toList = some skipped
  := by
  obtain ⟨same, -, passes⟩ := turns_ofRegion_plain (Finder.ofWidth .bits32 false) overlapping
    ⟨0, 100⟩ [.accept, .next, .next, .accept, .next, .next]
  have stands :
      (Finder.ofWidth .bits32 false).match? (overlapping.toList.drop 1) ≠ none := by
    decide
  rw [← same]
  exact ⟨by decide +kernel, stands, passes _ 1 stands⟩

/-- The two scanners leave their cursors at different places when they have found nothing more:
one before the bytes that it passes over, the other behind them. -/
example :
  (ofRegion (Finder.ofWidth .bits32 false) #[0x90, 0x90] ⟨0, 2⟩).next.2.cursor = 0
    ∧ (ofRegion (Finder.ofWidth .bits32 false).plain #[0x90, 0x90] ⟨0, 2⟩).next.2.cursor = 2
  := by
  decide +kernel

end Scanner

end ImageRefs
