import ImageRefs.Branch.Form
import Mathlib.Tactic.Use

/-!
# Branches at the front of a prefix

Whether a branch stands at the front of a list of bytes depends on the bytes of the
instruction only: in a prefix of the list the same branch is recognised, unless the prefix
cuts it off (`Finder.match?_take`).
-/

namespace ImageRefs

namespace BranchForm

/-- Conditions fit a prefix if they fit the list and the prefix holds the instruction. -/
theorem fits_take (conditions : List (UInt8 → Bool)) (bytes : List UInt8) (count : Nat) :
  fits conditions (bytes.take count)
    = (fits conditions bytes && decide (conditions.length + 4 ≤ count))
  := by
  induction conditions generalizing bytes count with
  | nil =>
    apply Bool.eq_iff_iff.mpr
    simp only [fits, Bool.not_eq_true', List.isEmpty_eq_false_iff, ne_eq,
      List.drop_eq_nil_iff, List.length_take, Bool.and_eq_true, decide_eq_true_eq,
      List.length_nil]
    omega
  | cons condition conditions ih =>
    cases bytes with
    | nil => simp [fits]
    | cons byte bytes =>
      cases count with
      | zero => simp [fits]
      | succ count =>
        rw [List.take_succ_cons, fits, fits, ih, Bool.and_assoc]
        congr 3
        rw [List.length_cons]
        apply propext
        omega

/-- The bytes that conditions fit meet them one by one. -/
theorem getElem?_of_fits {conditions : List (UInt8 → Bool)} {bytes : List UInt8}
    (h : fits conditions bytes = true) {i : Nat} {condition : UInt8 → Bool}
    (hi : conditions[i]? = some condition) :
  ∃ byte, bytes[i]? = some byte ∧ condition byte = true
  := by
  induction conditions generalizing bytes i with
  | nil => cases hi
  | cons first conditions ih =>
    cases bytes with
    | nil => cases h
    | cons byte bytes =>
      obtain ⟨meets, rest⟩ := Bool.and_eq_true_iff.mp h
      cases i with
      | zero =>
        cases hi
        use byte, rfl
      | succ i => apply ih rest hi

theorem length_of_match? {form : BranchForm} {bytes : List UInt8} {m : BranchMatch}
    (h : form.match? bytes = some m) :
  m.length = form.opcode.length + 4
  := by
  rw [match?] at h
  split at h
  · cases h
    rfl
  · cases h

theorem match?_take (form : BranchForm) (bytes : List UInt8) (count : Nat) :
  form.match? (bytes.take count) = (form.match? bytes).filter (·.length ≤ count)
  := by
  rw [match?, match?, fits_take]
  cases fits form.opcode bytes with
  | false => rfl
  | true =>
    by_cases h : form.opcode.length + 4 ≤ count
    · simp [h, Option.filter_some]
    · simp [h, Option.filter_some]

/-- Of forms with the shorter ones first, the first one that fits a prefix is the first one
that fits the list, if the prefix holds its instruction. -/
theorem findSome?_match?_take {forms : List BranchForm}
    (ascending : forms.Pairwise fun f g => f.opcode.length ≤ g.opcode.length)
    (bytes : List UInt8) (count : Nat) :
  forms.findSome? (·.match? (bytes.take count))
    = (forms.findSome? (·.match? bytes)).filter (·.length ≤ count)
  := by
  induction ascending with
  | nil => rfl
  | @cons form forms shorter _ ih =>
    rw [List.findSome?_cons, List.findSome?_cons, match?_take]
    cases h : form.match? bytes with
    | none => apply ih
    | some m =>
      by_cases holds : m.length ≤ count
      · simp [holds, Option.filter_some]
      · have later : forms.findSome? (·.match? (bytes.take count)) = none := by
          apply List.findSome?_eq_none_iff.mpr
          intro g hg
          rw [match?_take]
          apply Option.filter_eq_none_iff.mpr
          intro n hn
          have := shorter g hg
          rw [length_of_match? h] at holds
          rw [length_of_match? hn]
          simp only [decide_eq_true_eq]
          omega
        simp [holds, later, Option.filter_some]

/-- The second byte of a conditional branch ends the opcode of no other form. -/
theorem conditional_of_last {form : BranchForm} (h : form ∈ near ++ ripRelative)
    {condition : UInt8 → Bool} (last : form.opcode[form.opcode.length - 1]? = some condition)
    {byte : UInt8} (meets : condition byte = true) (conditional : isCondition byte = true) :
  form.mayLeaveSection = false ∧ form.opcode.length = 2
  := by
  -- The highest bit of the byte is set, which it is in no operand relative to the instruction
  -- pointer.
  have high : byte &&& 0x80 = 0x80 := by
    calc byte &&& 0x80
      _ = byte &&& 0xF0 &&& 0x80 := by
        rw [UInt8.and_assoc]
        rfl
      _ = 0x80 := by
        rw [of_decide_eq_true conditional]
        rfl
  have ripRelative (operand : isRipRelative byte = true) : False := by
    have low : byte &&& 0x80 = 0 := by
      calc byte &&& 0x80
        _ = byte &&& 0xC7 &&& 0x80 := by
          rw [UInt8.and_assoc]
          rfl
        _ = 0 := by
          rw [of_decide_eq_true operand]
          rfl
    rw [low] at high
    cases high
  simp only [near, BranchForm.ripRelative, List.mem_append, List.mem_cons, List.not_mem_nil,
    or_false] at h
  rcases h with (rfl | rfl) | rfl | rfl | rfl
  · cases last
    rcases Bool.or_eq_true_iff.mp meets with h | h
    · cases of_decide_eq_true h
      exact absurd conditional (by decide)
    · cases of_decide_eq_true h
      exact absurd conditional (by decide)
  · use rfl
    rfl
  · cases last
    rcases Bool.or_eq_true_iff.mp meets with h | h
    · cases of_decide_eq_true h
      exact absurd conditional (by decide)
    · cases of_decide_eq_true h
      exact absurd conditional (by decide)
  · cases last
    apply (ripRelative meets).elim
  · cases last
    apply (ripRelative meets).elim

end BranchForm

namespace Finder

/-- The forms come with the shorter ones first. -/
theorem pairwise_forms (f : Finder) :
  f.forms.Pairwise fun g h => g.opcode.length ≤ h.opcode.length
  := by
  rw [forms]
  split <;> simp [BranchForm.near, BranchForm.ripRelative]

/-- In a prefix the same branch is recognised, unless the prefix cuts it off. -/
theorem match?_take (f : Finder) (bytes : List UInt8) (count : Nat) :
  f.match? (bytes.take count) = (f.match? bytes).filter (·.length ≤ count)
  := BranchForm.findSome?_match?_take f.pairwise_forms bytes count

/-- A branch whose displacement follows the second byte of a conditional branch is one. -/
theorem conditional_of_match? {f : Finder} {bytes : List UInt8} {m : BranchMatch}
    (h : f.match? bytes = some m) {byte : UInt8}
    (last : bytes[m.displacementOffset - 1]? = some byte)
    (conditional : BranchForm.isCondition byte = true) :
  m.mayLeaveSection = false ∧ m.displacementOffset = 2
  := by
  obtain ⟨positive, -⟩ := of_match? h
  obtain ⟨form, hform, hm⟩ := List.exists_of_findSome?_eq_some h
  have known : form ∈ BranchForm.near ++ BranchForm.ripRelative := by
    rw [forms] at hform
    split at hform
    · apply hform
    · apply List.mem_append_left _ hform
  rw [BranchForm.match?] at hm
  split at hm
  · next fits =>
    cases hm
    have inside : form.opcode.length - 1 < form.opcode.length := Nat.sub_one_lt_of_lt positive
    have condition := List.getElem?_eq_getElem inside
    obtain ⟨byte', here, meets⟩ := BranchForm.getElem?_of_fits fits condition
    obtain rfl := Option.some.inj (here.symm.trans last)
    apply BranchForm.conditional_of_last known condition meets conditional
  · cases hm

theorem match?_nil (f : Finder) :
  f.match? [] = none
  := by
  apply Option.eq_none_iff_forall_ne_some.mpr
  intro m h
  obtain ⟨-, long, fits⟩ := of_match? h
  rw [List.length_nil] at fits
  omega

/-- No branch begins with a byte that cannot begin one. -/
theorem match?_drop_eq_none {f : Finder} {bytes : List UInt8} {i : Nat}
    (h : ∀ byte, bytes[i]? = some byte → f.firstByte byte = false) :
  f.match? (bytes.drop i) = none
  := by
  by_cases inside : i < bytes.length
  · rw [List.drop_eq_getElem_cons inside]
    apply Option.eq_none_iff_forall_ne_some.mpr
    intro m hm
    have first := h bytes[i] (List.getElem?_eq_getElem inside)
    rw [firstByte_of_match? hm] at first
    cases first
  · rw [List.drop_eq_nil_of_le (Nat.le_of_not_lt inside), match?_nil]

/-- No branch stands at a byte that a scan passes over. -/
theorem match?_of_nextCandidate? {f : Finder} {bytes : List UInt8} {skipped i : Nat}
    (h : f.nextCandidate? bytes = some skipped) (hi : i < skipped) :
  f.match? (bytes.drop i) = none
  := by
  obtain ⟨inside, -, before⟩ := List.findIdx?_eq_some_iff_getElem.mp h
  apply match?_drop_eq_none
  intro byte hbyte
  obtain ⟨_, rfl⟩ := List.getElem?_eq_some_iff.mp hbyte
  have := before i hi
  simp only [Bool.or_eq_true, not_or, Bool.not_eq_true] at this
  apply this.2

/-- No branch stands anywhere if a scan finds no byte to look at. -/
theorem match?_of_nextCandidate?_eq_none {f : Finder} {bytes : List UInt8} (i : Nat)
    (h : f.nextCandidate? bytes = none) :
  f.match? (bytes.drop i) = none
  := by
  apply match?_drop_eq_none
  intro byte hbyte
  have := List.findIdx?_eq_none_iff.mp h byte (List.mem_of_getElem? hbyte)
  simp only [Bool.or_eq_false_iff] at this
  apply this.2

end Finder

end ImageRefs
