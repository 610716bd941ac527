import ImageRefs.Proofs.Bytes.Field
import Mathlib.Data.List.Basic

/-!
# Checked evaluation

Lookups and scans compute with numbers of 32 and of 64 bits, cut windows out of buffers at
places that they have computed, and repeat steps until they have a result.  In a checked
evaluation every sum, every difference and every window is checked, the number of steps is
limited, and a check that fails is a fault.  An evaluation without a fault computes with numbers
that have not been cut off and with windows inside their buffers, and comes to an end.

Each operation has a lemma that says when it has no fault; for repeated steps this is
`Checked.iterate_eq_ok`.
-/

namespace ImageRefs

/-- What a checked evaluation can fail with. -/
inductive Fault where
  /-- A number does not have the bits that it must have. -/
  | overflow
  /-- A number is subtracted from a smaller one. -/
  | underflow
  /-- A window does not lie inside its buffer. -/
  | window
  /-- A field that must be there is not. -/
  | missing
  /-- The result is not there after the number of steps that are allowed. -/
  | unfinished
  deriving Repr, DecidableEq

/-- A result, or the fault of the first check that has failed. -/
abbrev Checked (α : Type) :=
  Except Fault α

namespace Checked

variable {α β σ ρ : Type}

/-- The sum of two numbers, which must lie below a bound. -/
def sum (bound a b : Nat) : Checked Nat :=
  if a + b < bound then .ok (a + b) else .error .overflow

/-- The difference of two numbers, of which the second must not be larger. -/
def difference (a b : Nat) : Checked Nat :=
  if b ≤ a then .ok (a - b) else .error .underflow

/-- A number, which must have 32 bits. -/
def narrow (n : Nat) : Checked Nat :=
  if n < space32 then .ok n else .error .overflow

/-- The elements of a list from `start` up to, and without, `stop`, which must lie in this order
and not past the end of the list. -/
def window (list : List α) (start stop : Nat) : Checked (List α) :=
  if start ≤ stop ∧ stop ≤ list.length then .ok ((list.take stop).drop start)
  else .error .window

/-- The index of the first element of a list that does not meet a condition.  If none of the
elements behind it meets the condition, this is where the list is cut in two. -/
def partitionPoint (p : α → Bool) (list : List α) : Nat :=
  list.findIdx fun a => !p a

/-- The value of a field, which must be there. -/
def demand : Option α → Checked α
  | some value => .ok value
  | none => .error .missing

/-- The result of a step that is repeated, at most `limit` times, until it has one. -/
def iterate (step : σ → Checked (σ ⊕ ρ)) : (limit : Nat) → σ → Checked ρ
  | 0, _ => .error .unfinished
  | limit + 1, s => do
    match ← step s with
    | .inl t => iterate step limit t
    | .inr result => .ok result

theorem ok_bind (a : α) (f : α → Checked β) :
  (Except.ok a >>= f) = f a
  := rfl

theorem sum_eq_ok {bound a b : Nat} (h : a + b < bound) :
  sum bound a b = .ok (a + b)
  := if_pos h

theorem sum_eq_error {bound a b : Nat} (h : bound ≤ a + b) :
  sum bound a b = .error .overflow
  := if_neg (Nat.not_lt.mpr h)

theorem difference_eq_ok {a b : Nat} (h : b ≤ a) :
  difference a b = .ok (a - b)
  := if_pos h

theorem narrow_eq_ok {n : Nat} (h : n < space32) :
  narrow n = .ok n
  := if_pos h

theorem window_eq_ok {list : List α} {start stop : Nat} (order : start ≤ stop)
    (inside : stop ≤ list.length) :
  window list start stop = .ok ((list.take stop).drop start)
  := if_pos ⟨order, inside⟩

theorem partitionPoint_le (p : α → Bool) (list : List α) :
  partitionPoint p list ≤ list.length
  := List.findIdx_le_length

theorem drop_partitionPoint (p : α → Bool) (list : List α) :
  list.drop (partitionPoint p list) = list.dropWhile p
  := List.dropWhile_eq_drop_findIdx_not.symm

theorem take_partitionPoint (p : α → Bool) (list : List α) :
  list.take (partitionPoint p list) = list.takeWhile p
  := List.takeWhile_eq_take_findIdx_not.symm

/-- Where a weaker condition ends to be met is not before where a stronger one does. -/
theorem partitionPoint_mono {p q : α → Bool} (weaker : ∀ a, p a = true → q a = true)
    (list : List α) :
  partitionPoint p list ≤ partitionPoint q list
  := by
  apply List.findIdx_le_findIdx
  intro a _
  simp only [Bool.not_eq_true', ← Bool.not_eq_true]
  apply mt (weaker a)

/-- Where a weaker condition ends to be met may be looked for behind the elements that meet a
stronger one. -/
theorem partitionPoint_drop {p q : α → Bool} (weaker : ∀ a, p a = true → q a = true)
    (list : List α) :
  partitionPoint q (list.drop (partitionPoint p list))
    = partitionPoint q list - partitionPoint p list
  := by
  induction list with
  | nil => rfl
  | cons a list ih =>
    simp only [partitionPoint, List.findIdx_cons] at ih ⊢
    cases hp : p a with
    | true =>
      rw [weaker a hp]
      simp only [Bool.not_true, cond_false, List.drop_succ_cons, ih]
      omega
    | false =>
      simp only [Bool.not_false, cond_true, List.drop_zero, List.findIdx_cons, Nat.sub_zero]

/-- An evaluation for each element of a list has no fault if none of them has one. -/
theorem mapM_eq_ok {f : α → Checked β} {g : α → β} {list : List α}
    (h : ∀ a ∈ list, f a = .ok (g a)) :
  list.mapM f = .ok (list.map g)
  := by
  induction list with
  | nil => rfl
  | cons a list ih =>
    rw [List.forall_mem_cons] at h
    rw [List.mapM_cons, h.1, ok_bind, ih h.2, ok_bind]
    rfl

/-- A step is repeated without a fault and gives the result that belongs to the first state, if
it has no fault in a state of a certain kind, and either gives the result that belongs to that
state or goes on to a state of the same kind, with the same result and a smaller measure.  The
measure bounds the number of steps. -/
theorem iterate_eq_ok {step : σ → Checked (σ ⊕ ρ)} {result : σ → ρ} (Good : σ → Prop)
    (measure : σ → Nat)
    (steps : ∀ s, Good s → step s = .ok (.inr (result s))
      ∨ ∃ t, step s = .ok (.inl t) ∧ Good t ∧ measure t < measure s ∧ result t = result s)
    {limit : Nat} {s : σ} (good : Good s) (enough : measure s < limit) :
  iterate step limit s = .ok (result s)
  := by
  induction limit generalizing s with
  | zero => exact absurd enough (Nat.not_lt_zero _)
  | succ limit ih =>
    rw [iterate]
    rcases steps s good with done | ⟨t, next, good', less, same⟩
    · rw [done, ok_bind]
    · rw [next, ok_bind, ← same]
      apply ih good'
      omega

end Checked

end ImageRefs
