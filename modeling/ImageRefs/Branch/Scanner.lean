import ImageRefs.Branch.Form
import ImageRefs.Bytes.Region

/-!
# Scanning a region for branches

A scanner proposes the branches in a region of a buffer one after the other.  After a
proposal that is accepted it goes on behind the instruction, and after one that is not it
goes on at the next byte, so accepted instructions never overlap.

`next` passes over bytes as its recogniser allows, and leaves the scanner where its search has
come to, which depends on the bytes passed over.  `accepted` runs a scanner to its end and
accepts the proposals that meet a condition.
-/

namespace ImageRefs

/-- A proposed branch, in offsets of the buffer. -/
structure Candidate where
  /-- Where the instruction begins. -/
  start : Nat
  /-- Where its displacement begins. -/
  location : Nat
  /-- The first offset past the instruction. -/
  stop : Nat
  mayLeaveSection : Bool
  deriving Repr, DecidableEq

/-- The candidate that begins at `start`. -/
def BranchMatch.candidate (m : BranchMatch) (start : Nat) : Candidate :=
  ⟨start, start + m.displacementOffset, start + m.length, m.mayLeaveSection⟩

/-- A place in a region at which a branch has been recognised. -/
structure Sighting where
  /-- The offset in the buffer. -/
  position : Nat
  /-- The bytes of the region from there on. -/
  rest : List UInt8
  found : BranchMatch
  deriving Repr, DecidableEq

/-- What a search for a branch leaves. -/
structure Search where
  /-- The offset of the last bytes that have been looked through. -/
  cursor : Nat
  /-- The bytes of the region from there on. -/
  rest : List UInt8
  /-- The first branch in them. -/
  sighting : Option Sighting
  deriving Repr, DecidableEq

namespace Finder

/-- Searches a list of bytes that begins at the offset `cursor`.  The search goes on behind a byte
at which no branch stands. -/
def search (f : Finder) (cursor : Nat) (bytes : List UInt8) : Search :=
  match _h : f.nextCandidate? bytes with
  | none => ⟨cursor, bytes, none⟩
  | some skipped =>
    match f.match? (bytes.drop skipped) with
    | some m => ⟨cursor, bytes, some ⟨cursor + skipped, bytes.drop skipped, m⟩⟩
    | none => f.search (cursor + skipped + 1) (bytes.drop (skipped + 1))
termination_by bytes.length
decreasing_by
  have := (List.findIdx?_eq_some_iff_getElem.mp _h).1
  simp only [List.length_drop]
  omega

/-- The first branch in a list of bytes that begins at the offset `position`. -/
def seek? (f : Finder) (position : Nat) (bytes : List UInt8) : Option Sighting :=
  (f.search position bytes).sighting

/-- A branch is sighted where it is recognised, and in the bytes that were looked at. -/
theorem of_seek? {f : Finder} {position : Nat} {bytes : List UInt8} {s : Sighting}
    (h : f.seek? position bytes = some s) :
  f.match? s.rest = some s.found ∧ s.rest.length ≤ bytes.length
    ∧ s.position + s.rest.length = position + bytes.length
  := by
  rw [seek?] at h
  fun_induction search f position bytes with
  | case1 => cases h
  | case2 position bytes skipped hskipped m hm =>
    cases h
    have := (List.findIdx?_eq_some_iff_getElem.mp hskipped).1
    refine ⟨hm, ?_, ?_⟩ <;> simp only [List.length_drop] <;> omega
  | case3 position bytes skipped hskipped hnone ih =>
    have := (List.findIdx?_eq_some_iff_getElem.mp hskipped).1
    obtain ⟨hm, hle, hpos⟩ := ih h
    simp only [List.length_drop] at hle hpos
    exact ⟨hm, by omega, by omega⟩

end Finder

/-- A scan of a region, with what its last search has left. -/
structure Scanner where
  finder : Finder
  /-- Where the last search has come to. -/
  cursor : Nat
  /-- The bytes of the region from `cursor` on. -/
  rest : List UInt8
  /-- The branch that has been proposed, if it has not been accepted. -/
  pending : Option Sighting
  deriving Repr, DecidableEq

namespace Scanner

/-- The scanner of the part of a region that lies inside a buffer. -/
def ofRegion (finder : Finder) (data : Bytes) (region : Region) : Scanner :=
  ⟨finder, min region.offset (min region.stop data.size), region.clamped data, none⟩

/-- The scanner moved behind the first `count` bytes of a branch, with nothing proposed. -/
def advance (s : Scanner) (p : Sighting) (count : Nat) : Scanner :=
  { s with cursor := p.position + count, rest := p.rest.drop count, pending := none }

/-- The scanner once its last proposal, if it has not been accepted, counts as refused. -/
def settle (s : Scanner) : Scanner :=
  match s.pending with
  | none => s
  | some p => s.advance p 1

/-- The next proposal, and the scanner after it. -/
def next (s : Scanner) : Option Candidate × Scanner :=
  let search := s.finder.search s.settle.cursor s.settle.rest
  (search.sighting.map fun p => p.found.candidate p.position,
    ⟨s.finder, search.cursor, search.rest, search.sighting⟩)

/-- The scanner after its last proposal has been accepted. -/
def accept (s : Scanner) : Scanner :=
  match s.pending with
  | none => s
  | some p => s.advance p p.found.length

/-- A number that sinks with each proposal and each acceptance: twice the number of bytes from the
open proposal on, or from the cursor on and one more while no proposal is open. -/
def budget (s : Scanner) : Nat :=
  match s.pending with
  | none => 2 * s.rest.length + 1
  | some p => 2 * p.rest.length

section

variable {s : Scanner} {p : Sighting}

theorem settle_of_pending_eq_none (h : s.pending = none) :
  s.settle = s
  := by
  rw [settle, h]

theorem settle_of_pending_eq_some (h : s.pending = some p) :
  s.settle = s.advance p 1
  := by
  rw [settle, h]

theorem accept_of_pending_eq_none (h : s.pending = none) :
  s.accept = s
  := by
  rw [accept, h]

theorem accept_of_pending_eq_some (h : s.pending = some p) :
  s.accept = s.advance p p.found.length
  := by
  rw [accept, h]

theorem budget_of_pending_eq_none (h : s.pending = none) :
  s.budget = 2 * s.rest.length + 1
  := by
  rw [budget, h]

theorem budget_of_pending_eq_some (h : s.pending = some p) :
  s.budget = 2 * p.rest.length
  := by
  rw [budget, h]

/-- The budget exceeds twice the number of bytes that the next search looks through, if there are
any. -/
theorem lt_budget (h : 0 < s.settle.rest.length) :
  2 * s.settle.rest.length < s.budget
  := by
  cases pending : s.pending with
  | none =>
    rw [budget_of_pending_eq_none pending, settle_of_pending_eq_none pending]
    omega
  | some p =>
    rw [settle_of_pending_eq_some pending, advance, List.length_drop] at h ⊢
    rw [budget_of_pending_eq_some pending]
    omega

/-- What a scanner has proposed is recognised, and lowers the budget. -/
theorem of_next {t : Scanner} {c : Candidate} (h : s.next = (some c, t)) :
  ∃ p, t.pending = some p ∧ t.finder.match? p.rest = some p.found
    ∧ c = p.found.candidate p.position ∧ t.budget < s.budget
  := by
  rw [next, Prod.mk.injEq] at h
  obtain ⟨answer, rfl⟩ := h
  obtain ⟨p, sighting, rfl⟩ := Option.map_eq_some_iff.mp answer
  obtain ⟨found, shorter, -⟩ := Finder.of_seek? sighting
  obtain ⟨positive, long, fits⟩ := Finder.of_match? found
  refine ⟨p, sighting, found, rfl, ?_⟩
  rw [budget_of_pending_eq_some sighting]
  have paid := lt_budget (s := s) (by omega)
  omega

/-- Accepting a proposal lowers the budget. -/
theorem budget_accept_lt (pending : s.pending = some p)
    (found : s.finder.match? p.rest = some p.found) :
  s.accept.budget < s.budget
  := by
  obtain ⟨positive, long, fits⟩ := Finder.of_match? found
  rw [accept_of_pending_eq_some pending, budget_of_pending_eq_none rfl,
    budget_of_pending_eq_some pending, advance, List.length_drop]
  omega

end

/-- The proposals that meet a condition, when each is accepted exactly if it does. -/
def accepted (accepts : Candidate → Bool) (s : Scanner) : List Candidate :=
  match _h : s.next with
  | (none, _) => []
  | (some c, t) =>
    if accepts c then c :: accepted accepts t.accept else accepted accepts t
termination_by s.budget
decreasing_by
  · obtain ⟨m, hp, hm, -, hlt⟩ := of_next _h
    exact Nat.lt_trans (budget_accept_lt hp hm) hlt
  · obtain ⟨m, -, -, -, hlt⟩ := of_next _h
    exact hlt

end Scanner

end ImageRefs
