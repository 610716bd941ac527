import ImageRefs.Width

/-!
# Forms of relative branches

Instructions that end with a 32-bit displacement are recognised by their first bytes:

* `E8` and `E9`, a call and a jump;
* `0F 80` to `0F 8F`, the conditional branches;
* in 64-bit code, if wanted, `FF 15` and `FF 25`, a call and a jump through memory, and
  `89`, `8B` and `8D` with an operand relative to the instruction pointer, also behind
  `48` or `4C`.

`Finder.firstByte` tells which bytes can begin such an instruction at all, so that a scan
may pass over the others; `firstByte_of_match?` says that no match is passed over.
-/

namespace ImageRefs

/-- An instruction recognised at the front of a list of bytes. -/
structure BranchMatch where
  /-- How far behind the front the displacement begins. -/
  displacementOffset : Nat
  /-- The number of bytes of the instruction. -/
  length : Nat
  /-- Whether the target may lie in another section. -/
  mayLeaveSection : Bool
  deriving Repr, DecidableEq

/-- A form of instruction: conditions on its first bytes, behind which a four-byte
displacement follows. -/
structure BranchForm where
  opcode : List (UInt8 → Bool)
  mayLeaveSection : Bool

namespace BranchForm

/-- Whether a list begins with bytes that meet the given conditions, one each, and holds
four bytes more. -/
def fits : List (UInt8 → Bool) → List UInt8 → Bool
  | [], bytes => !(bytes.drop 3).isEmpty
  | condition :: conditions, byte :: bytes => condition byte && fits conditions bytes
  | _ :: _, [] => false

/-- The instruction of this form at the front of a list of bytes. -/
def match? (form : BranchForm) (bytes : List UInt8) : Option BranchMatch :=
  if fits form.opcode bytes then
    some ⟨form.opcode.length, form.opcode.length + 4, form.mayLeaveSection⟩
  else
    none

theorem length_of_fits {conditions : List (UInt8 → Bool)} {bytes : List UInt8}
    (h : fits conditions bytes = true) :
  conditions.length + 4 ≤ bytes.length
  := by
  fun_induction fits conditions bytes with
  | case1 bytes =>
    simp only [Bool.not_eq_true', List.isEmpty_eq_false_iff, ne_eq,
      List.drop_eq_nil_iff] at h
    simp only [List.length_nil]
    omega
  | case2 condition conditions byte bytes ih =>
    simp only [Bool.and_eq_true] at h
    have := ih h.2
    simp only [List.length_cons]
    omega
  | case3 => simp at h

/-! ### The table of forms -/

/-- A byte that begins a call or a jump. -/
def isCallOrJump (byte : UInt8) : Bool :=
  byte == 0xE8 || byte == 0xE9

/-- The second byte of a conditional branch. -/
def isCondition (byte : UInt8) : Bool :=
  byte &&& 0xF0 == 0x80

/-- The second byte of a call or a jump through memory. -/
def isIndirect (byte : UInt8) : Bool :=
  byte == 0x15 || byte == 0x25

/-- A byte that begins a move or an address computation. -/
def isMove (byte : UInt8) : Bool :=
  byte == 0x89 || byte == 0x8B || byte == 0x8D

/-- A byte that widens the move behind it. -/
def isWide (byte : UInt8) : Bool :=
  byte == 0x48 || byte == 0x4C

/-- The ModR/M byte of an operand relative to the instruction pointer. -/
def isRipRelative (byte : UInt8) : Bool :=
  byte &&& 0xC7 == 0x05

/-- Calls, jumps and conditional branches.  The conditional branches alone are expected
to stay in their section. -/
def near : List BranchForm :=
  [⟨[isCallOrJump], true⟩, ⟨[(· == 0x0F), isCondition], false⟩]

/-- Instructions with an operand relative to the instruction pointer. -/
def ripRelative : List BranchForm :=
  [⟨[(· == 0xFF), isIndirect], true⟩, ⟨[isMove, isRipRelative], true⟩,
    ⟨[isWide, isMove, isRipRelative], true⟩]

end BranchForm

/-- A recogniser of branches: which forms it knows, and whether a scan with it passes over
bytes that cannot begin one. -/
structure Finder where
  ripRelative : Bool
  skipping : Bool
  deriving Repr, DecidableEq

namespace Finder

/-- The recogniser for code of a given width; the forms relative to the instruction
pointer exist in 64-bit code only. -/
def ofWidth (width : Width) (ripRelative : Bool) : Finder :=
  match width with
  | .bits32 => ⟨false, true⟩
  | .bits64 => ⟨ripRelative, true⟩

/-- The same recogniser without passing over bytes. -/
def plain (f : Finder) : Finder :=
  { f with skipping := false }

/-- The forms that the recogniser knows. -/
def forms (f : Finder) : List BranchForm :=
  if f.ripRelative then BranchForm.near ++ BranchForm.ripRelative else BranchForm.near

/-- The branch at the front of a list of bytes. -/
def match? (f : Finder) (bytes : List UInt8) : Option BranchMatch :=
  f.forms.findSome? (·.match? bytes)

/-- Whether a byte can begin a branch. -/
def firstByte (f : Finder) (byte : UInt8) : Bool :=
  [0xE8, 0xE9, 0x0F].contains byte
    || f.ripRelative && [0xFF, 0x89, 0x8B, 0x8D, 0x48, 0x4C].contains byte

/-- The index of the first byte at which a scan looks for a branch. -/
def nextCandidate? (f : Finder) (bytes : List UInt8) : Option Nat :=
  bytes.findIdx? fun byte => !f.skipping || f.firstByte byte

/-- A recognised branch has at least one byte before its displacement, ends with the four
bytes of the displacement, and fits in the bytes. -/
theorem of_match? {f : Finder} {bytes : List UInt8} {m : BranchMatch}
    (h : f.match? bytes = some m) :
  0 < m.displacementOffset ∧ m.displacementOffset + 4 = m.length ∧ m.length ≤ bytes.length
  := by
  obtain ⟨form, hform, hm⟩ := List.exists_of_findSome?_eq_some h
  unfold BranchForm.match? at hm
  split at hm
  · next fits =>
    cases hm
    have positive : 0 < form.opcode.length := by
      unfold forms at hform
      split at hform
      · simp [BranchForm.near, BranchForm.ripRelative] at hform
        rcases hform with rfl | rfl | rfl | rfl | rfl <;> simp
      · simp [BranchForm.near] at hform
        rcases hform with rfl | rfl <;> simp
    exact ⟨positive, rfl, BranchForm.length_of_fits fits⟩
  · simp at hm

/-- The first byte of a recognised branch can begin a branch. -/
theorem firstByte_of_match? {f : Finder} {byte : UInt8} {bytes : List UInt8}
    {m : BranchMatch} (h : f.match? (byte :: bytes) = some m) :
  f.firstByte byte = true
  := by
  obtain ⟨form, hform, hm⟩ := List.exists_of_findSome?_eq_some h
  unfold BranchForm.match? at hm
  split at hm
  · next fits =>
    unfold forms at hform
    split at hform
    · next rip =>
      simp [BranchForm.near, BranchForm.ripRelative] at hform
      rcases hform with rfl | rfl | rfl | rfl | rfl <;>
        simp [BranchForm.fits, BranchForm.isCallOrJump, BranchForm.isMove,
          BranchForm.isWide] at fits <;>
        grind [firstByte]
    · simp [BranchForm.near] at hform
      rcases hform with rfl | rfl <;>
        simp [BranchForm.fits, BranchForm.isCallOrJump] at fits <;>
        grind [firstByte]
  · simp at hm

end Finder

end ImageRefs
