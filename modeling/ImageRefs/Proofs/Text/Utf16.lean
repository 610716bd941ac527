import ImageRefs.Text.Utf16
import Mathlib.Logic.Basic

/-!
# Decoding UTF-16

Code units are decoded to the text whose code units they are, and refused if they are those of no
text (`decode?_eq_some_iff`).
-/

namespace ImageRefs.Utf16

theorem isHigh_eq_true_iff {unit : Nat} :
  isHigh unit = true ↔ 0xD800 ≤ unit ∧ unit < 0xDC00
  := by
  simp [isHigh]

theorem isLow_eq_true_iff {unit : Nat} :
  isLow unit = true ↔ 0xDC00 ≤ unit ∧ unit < 0xE000
  := by
  simp [isLow]

/-- The code points of characters are not surrogates. -/
theorem toNat_cases (c : Char) :
  c.toNat < 0xD800 ∨ 0xE000 ≤ c.toNat ∧ c.toNat < 0x110000
  := by
  rcases c.valid with low | ⟨above, high⟩
  · left
    apply low
  · right
    exact ⟨above, high⟩

theorem toNat_ofNat {n : Nat} (h : n < 0xD800 ∨ 0xE000 ≤ n ∧ n < 0x110000) :
  (Char.ofNat n).toNat = n
  := by
  have valid : n.isValidChar := h
  rw [Char.ofNat, dif_pos valid]
  rfl

theorem lt_of_mem_encodeChar {c : Char} {unit : Nat} (h : unit ∈ encodeChar c) :
  unit < 0x10000
  := by
  have point := toNat_cases c
  rw [encodeChar] at h
  split at h
  · rw [List.mem_singleton.mp h]
    assumption
  · simp only [List.mem_cons, List.not_mem_nil, or_false] at h
    omega

/-- A character is decoded from its code units. -/
theorem decode?_encodeChar_append (c : Char) (units : List Nat) :
  decode? (encodeChar c ++ units) = (decode? units).map (c :: ·)
  := by
  have point := toNat_cases c
  rw [encodeChar]
  split
  · next basic =>
    have high : isHigh c.toNat = false := by
      rw [Bool.eq_false_iff, ne_eq, isHigh_eq_true_iff]
      omega
    have low : isLow c.toNat = false := by
      rw [Bool.eq_false_iff, ne_eq, isLow_eq_true_iff]
      omega
    cases units with
    | nil => simp [decode?, high, low]
    | cons unit units => simp [decode?, high, low]
  · next above =>
    have high : isHigh (0xD800 + (c.toNat - 0x10000) / 0x400) = true := by
      rw [isHigh_eq_true_iff]
      omega
    have low : isLow (0xDC00 + (c.toNat - 0x10000) % 0x400) = true := by
      rw [isLow_eq_true_iff]
      omega
    have whole : 0x10000 + (0xD800 + (c.toNat - 0x10000) / 0x400 - 0xD800) * 0x400
        + (0xDC00 + (c.toNat - 0x10000) % 0x400 - 0xDC00) = c.toNat := by
      omega
    rw [List.cons_append, List.cons_append, List.nil_append, decode?, if_pos high, if_pos low,
      whole, Char.ofNat_toNat]

/-- A text is decoded from its code units. -/
theorem decode?_encode (text : List Char) :
  decode? (encode text) = some text
  := by
  induction text with
  | nil => rfl
  | cons c text ih =>
    rw [encode, List.flatMap_cons, ← encode, decode?_encodeChar_append, ih, Option.map_some]

theorem encode_injective {a b : List Char} (h : encode a = encode b) :
  a = b
  := by
  have same := decode?_encode a
  rw [h, decode?_encode] at same
  apply (Option.some.inj same).symm

/-- A unit that is no surrogate is a character on its own. -/
theorem encodeChar_ofNat {unit : Nat} (bounded : unit < 0x10000) (high : ¬ isHigh unit = true)
    (low : ¬ isLow unit = true) :
  encodeChar (Char.ofNat unit) = [unit]
  := by
  rw [isHigh_eq_true_iff] at high
  rw [isLow_eq_true_iff] at low
  rw [encodeChar, toNat_ofNat (by omega), if_pos bounded]

/-- A pair of surrogates is a character. -/
theorem encodeChar_ofNat_pair {high low : Nat} (isHigh : isHigh high = true)
    (isLow : isLow low = true) :
  encodeChar (Char.ofNat (0x10000 + (high - 0xD800) * 0x400 + (low - 0xDC00))) = [high, low]
  := by
  rw [isHigh_eq_true_iff] at isHigh
  rw [isLow_eq_true_iff] at isLow
  have first : 0xD800 + (0x10000 + (high - 0xD800) * 0x400 + (low - 0xDC00) - 0x10000) / 0x400
      = high := by
    omega
  have second : 0xDC00 + (0x10000 + (high - 0xD800) * 0x400 + (low - 0xDC00) - 0x10000) % 0x400
      = low := by
    omega
  rw [encodeChar, toNat_ofNat (by omega), if_neg (by omega), first, second]

/-- Code units are decoded to the text whose code units they are. -/
theorem decode?_eq_some_iff {units : List Nat} {text : List Char}
    (bounded : ∀ unit ∈ units, unit < 0x10000) :
  decode? units = some text ↔ encode text = units
  := by
  constructor
  · intro h
    fun_induction decode? units generalizing text with
    | case1 =>
      cases h
      rfl
    | case2 high low units isHigh isLow ih =>
      obtain ⟨behind, decoded, rfl⟩ := Option.map_eq_some_iff.mp h
      have rest := (List.forall_mem_cons.mp (List.forall_mem_cons.mp bounded).2).2
      rw [encode, List.flatMap_cons, ← encode, ih rest decoded, encodeChar_ofNat_pair isHigh isLow]
      rfl
    | case3 => cases h
    | case4 => cases h
    | case5 unit next units isHigh isLow ih =>
      obtain ⟨behind, decoded, rfl⟩ := Option.map_eq_some_iff.mp h
      obtain ⟨here, rest⟩ := List.forall_mem_cons.mp bounded
      rw [encode, List.flatMap_cons, ← encode, ih rest decoded, encodeChar_ofNat here isHigh isLow]
      rfl
    | case6 => cases h
    | case7 unit other =>
      cases h
      obtain ⟨isHigh, isLow⟩ := not_or.mp (Bool.or_eq_true _ _ ▸ other)
      rw [encode, List.flatMap_singleton,
        encodeChar_ofNat (bounded unit List.mem_cons_self) isHigh isLow]
  · rintro rfl
    apply decode?_encode

end ImageRefs.Utf16
