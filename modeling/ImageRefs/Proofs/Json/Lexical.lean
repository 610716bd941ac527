import ImageRefs.Json.Parse
import ImageRefs.Proofs.Json.Grammar
import Mathlib.Data.List.Basic

/-!
# Reading blanks, numbers and strings

Each reader takes from the front of a text what the grammar allows there, and as much of it as
there is:

* `skipBlanks` leaves the first character that is not blank;
* `number?` reads a number up to a character that cannot continue it (`number?_of_isNumber`),
  and nothing else (`exists_of_number?`);
* `string?` reads a string up to its closing quote (`string?_of_isString`), and nothing else
  (`exists_of_string?`).
-/

namespace ImageRefs.Json

/-! ### Blanks -/

theorem isBlank_eq_true_iff {c : Char} :
  isBlank c = true ↔ c ∈ [' ', '\t', '\n', '\r']
  := by
  simp [isBlank, or_assoc]

theorem skipBlanks_append {blanks : List Char} (h : Blanks blanks) (text : List Char) :
  skipBlanks (blanks ++ text) = skipBlanks text
  := by
  apply List.dropWhile_append_of_pos
  intro c hc
  apply isBlank_eq_true_iff.mpr (h c hc)

theorem skipBlanks_cons {c : Char} (h : isBlank c = false) (text : List Char) :
  skipBlanks (c :: text) = c :: text
  := by
  rw [skipBlanks, List.dropWhile_cons_of_neg]
  rw [h]
  apply Bool.false_ne_true

/-- What is skipped is blank. -/
theorem exists_of_skipBlanks {text rest : List Char} (h : skipBlanks text = rest) :
  ∃ blanks, Blanks blanks ∧ text = blanks ++ rest
  := by
  use text.takeWhile isBlank
  constructor
  · intro c hc
    apply isBlank_eq_true_iff.mp
    apply List.all_eq_true.mp List.all_takeWhile c hc
  · rw [← h, skipBlanks, List.takeWhile_append_dropWhile]

/-! ### Digits -/

/-- No number at the end of which a text stands goes on in it. -/
def Ended (rest : List Char) : Prop :=
  ∀ c ∈ rest.head?, c.isDigit = false ∧ c ≠ '.' ∧ c ≠ 'e' ∧ c ≠ 'E'

theorem ended_nil :
  Ended []
  := by
  intro c hc
  cases hc

theorem ended_cons {c : Char} {rest : List Char}
    (h : c.isDigit = false ∧ c ≠ '.' ∧ c ≠ 'e' ∧ c ≠ 'E') :
  Ended (c :: rest)
  := by
  intro d hd
  cases hd
  apply h

/-- Blanks end a number. -/
theorem ended_append {blanks rest : List Char} (h : Blanks blanks) (ended : Ended rest) :
  Ended (blanks ++ rest)
  := by
  cases blanks with
  | nil => apply ended
  | cons c blanks =>
    have all : ∀ c ∈ [' ', '\t', '\n', '\r'],
        c.isDigit = false ∧ c ≠ '.' ∧ c ≠ 'e' ∧ c ≠ 'E' := by
      simp
    apply ended_cons (all c (h c List.mem_cons_self))

/-- The digits at the front of a text are taken as far as they go. -/
theorem spanDigits_append {digits rest : List Char} (h : IsDigits digits)
    (ended : ∀ c ∈ rest.head?, c.isDigit = false) :
  spanDigits (digits ++ rest) = (digits, rest)
  := by
  rw [spanDigits, List.takeWhile_append_of_pos h.digits, List.dropWhile_append_of_pos h.digits]
  cases rest with
  | nil => simp
  | cons c rest =>
    have other : c.isDigit = false := ended c rfl
    simp [other]

theorem exists_of_spanDigits {text digits rest : List Char}
    (h : spanDigits text = (digits, rest)) :
  text = digits ++ rest ∧ ∀ c ∈ digits, c.isDigit = true
  := by
  obtain ⟨rfl, rfl⟩ := Prod.mk.inj h
  constructor
  · rw [List.takeWhile_append_dropWhile]
  · apply List.all_eq_true.mp List.all_takeWhile

/-! ### Numbers -/

theorem isWhole_iff {text : List Char} :
  isWhole text = true ↔ text ≠ [] ∧ (text.head? = some '0' → text = ['0'])
  := by
  fun_cases isWhole text with
  | case1 => simp
  | case2 rest => simp
  | case3 text nonempty unpadded =>
    cases text with
    | nil => simp at nonempty
    | cons c text =>
      have other : c ≠ '0' := by
        rintro rfl
        apply unpadded text rfl
      simp [other]

theorem fraction?_of_isFraction {text rest : List Char} {fraction : Option (List Char)}
    (h : IsFraction text fraction) (ended : ∀ c ∈ rest.head?, c.isDigit = false ∧ c ≠ '.') :
  fraction? (text ++ rest) = some (fraction, rest)
  := by
  cases h with
  | none =>
    cases rest with
    | nil => rfl
    | cons c rest =>
      have other : c ≠ '.' := (ended c rfl).2
      simp [fraction?, other]
  | some digits =>
    have span := spanDigits_append digits fun c hc => (ended c hc).1
    simp [fraction?, span, digits.nonempty]

theorem exists_of_fraction? {text rest : List Char} {fraction : Option (List Char)}
    (h : fraction? text = some (fraction, rest)) :
  ∃ front, text = front ++ rest ∧ IsFraction front fraction
  := by
  fun_cases fraction? text with
  | case1 text digits rest' span empty => simp [fraction?, span, empty] at h
  | case2 text digits rest' span nonempty =>
    obtain ⟨rfl, all⟩ := exists_of_spanDigits span
    simp only [fraction?, span, nonempty, Bool.false_eq_true, if_false, Option.some.injEq,
      Prod.mk.injEq] at h
    obtain ⟨rfl, rfl⟩ := h
    use '.' :: digits, rfl
    apply IsFraction.some ⟨by simpa using nonempty, all⟩
  | case3 text other =>
    rw [fraction?] at h
    · obtain ⟨rfl, rfl⟩ := Prod.mk.inj (Option.some.inj h)
      use [], rfl, IsFraction.none
    · exact other

theorem signOf_of_isSign {sign digits rest : List Char} {negative : Bool}
    (h : IsSign sign negative) (isDigits : IsDigits digits) :
  signOf (sign ++ (digits ++ rest)) = (negative, digits ++ rest)
  := by
  cases h with
  | plus => rfl
  | minus => rfl
  | none =>
    cases digits with
    | nil => cases isDigits.nonempty rfl
    | cons c digits =>
      have digit := isDigits.digits c List.mem_cons_self
      have minus : c ≠ '-' := by
        rintro rfl
        cases digit
      have plus : c ≠ '+' := by
        rintro rfl
        cases digit
      simp [signOf, minus, plus]

theorem exists_of_signOf {text unsigned : List Char} {negative : Bool}
    (h : signOf text = (negative, unsigned)) :
  ∃ sign, text = sign ++ unsigned ∧ IsSign sign negative
  := by
  fun_cases signOf text with
  | case1 text =>
    obtain ⟨rfl, rfl⟩ := Prod.mk.inj h
    use ['-'], rfl, IsSign.minus
  | case2 text =>
    obtain ⟨rfl, rfl⟩ := Prod.mk.inj h
    use ['+'], rfl, IsSign.plus
  | case3 text minus plus =>
    rw [signOf] at h
    · obtain ⟨rfl, rfl⟩ := Prod.mk.inj h
      use [], rfl, IsSign.none
    · exact minus
    · exact plus

theorem exponent?_of_isExponent {text rest : List Char} {exponent : Option (Bool × List Char)}
    (h : IsExponent text exponent)
    (ended : ∀ c ∈ rest.head?, c.isDigit = false ∧ c ≠ 'e' ∧ c ≠ 'E') :
  exponent? (text ++ rest) = some (exponent, rest)
  := by
  cases h with
  | none =>
    cases rest with
    | nil => rfl
    | cons c rest =>
      obtain ⟨-, lower, upper⟩ := ended c rfl
      simp [exponent?, lower, upper]
  | @some e sign digits negative letter isSign isDigits =>
    have here : (e == 'e' || e == 'E') = true := by
      simpa using letter
    have span := spanDigits_append isDigits fun c hc => (ended c hc).1
    simp only [List.cons_append, List.append_assoc, exponent?, here, if_true,
      signOf_of_isSign isSign isDigits, span, List.isEmpty_eq_false_iff.mpr isDigits.nonempty,
      Bool.false_eq_true, if_false]

theorem exists_of_exponent? {text rest : List Char} {exponent : Option (Bool × List Char)}
    (h : exponent? text = some (exponent, rest)) :
  ∃ front, text = front ++ rest ∧ IsExponent front exponent
  := by
  fun_cases exponent? text with
  | case1 e text letter negative unsigned signed digits rest' span empty =>
    simp [exponent?, letter, signed, span, empty] at h
  | case2 e text letter negative unsigned signed digits rest' span nonempty =>
    obtain ⟨rfl, all⟩ := exists_of_spanDigits span
    obtain ⟨sign, rfl, isSign⟩ := exists_of_signOf signed
    simp only [exponent?, letter, if_true, signed, span, nonempty, Bool.false_eq_true, if_false,
      Option.some.injEq, Prod.mk.injEq] at h
    obtain ⟨rfl, rfl⟩ := h
    use e :: (sign ++ digits)
    constructor
    · simp
    · apply IsExponent.some (by simpa using letter) isSign ⟨by simpa using nonempty, all⟩
  | case3 e text other =>
    simp only [exponent?, other, Bool.false_eq_true, if_false] at h
    obtain ⟨rfl, rfl⟩ := Prod.mk.inj (Option.some.inj h)
    use [], rfl, IsExponent.none
  | case4 =>
    obtain ⟨rfl, rfl⟩ := Prod.mk.inj (Option.some.inj h)
    use [], rfl, IsExponent.none

/-- Neither a digit nor a point stands where the exponent of a number may begin. -/
theorem head_of_isExponent {text rest : List Char} {exponent : Option (Bool × List Char)}
    (h : IsExponent text exponent) (ended : Ended rest) :
  ∀ c ∈ (text ++ rest).head?, c.isDigit = false ∧ c ≠ '.'
  := by
  cases h with
  | none =>
    intro c hc
    obtain ⟨digit, point, -⟩ := ended c hc
    exact ⟨digit, point⟩
  | some letter =>
    rintro c ⟨⟩
    have all : ∀ c ∈ ['e', 'E'], c.isDigit = false ∧ c ≠ '.' := by simp
    apply all _ letter

/-- No digit stands where the fraction of a number may begin. -/
theorem head_of_isFraction {text rest : List Char} {fraction : Option (List Char)}
    (h : IsFraction text fraction) (ended : ∀ c ∈ rest.head?, c.isDigit = false ∧ c ≠ '.') :
  ∀ c ∈ (text ++ rest).head?, c.isDigit = false
  := by
  cases h with
  | none =>
    intro c hc
    apply (ended c hc).1
  | some =>
    rintro c ⟨⟩
    rfl

/-- A minus in front of the digits is the sign of a number. -/
theorem number?_append {text : List Char} (negative : Bool) (unsigned : text.head? ≠ some '-') :
  number? ((if negative then ['-'] else []) ++ text)
    = if isWhole (spanDigits text).1 then do
        let (fraction, rest) ← fraction? (spanDigits text).2
        let (exponent, rest) ← exponent? rest
        some (⟨negative, Nat.ofDigitChars 10 (spanDigits text).1 0, fraction, exponent⟩, rest)
      else
        none
  := by
  cases negative with
  | true => rfl
  | false =>
    rw [if_neg Bool.false_ne_true, List.nil_append, number?]
    rintro rest rfl
    cases unsigned rfl

/-- A number is read up to where it ends. -/
theorem number?_of_isNumber {text rest : List Char} {n : Number} (h : IsNumber text n)
    (ended : Ended rest) :
  number? (text ++ rest) = some (n, rest)
  := by
  obtain @⟨whole, fraction, exponent, n, isWholeText, isFraction, isExponent⟩ := h
  have behindFraction := head_of_isExponent isExponent ended
  have behindWhole := head_of_isFraction isFraction behindFraction
  have span := spanDigits_append isWholeText.toIsDigits behindWhole
  have unsigned : (whole ++ (fraction ++ (exponent ++ rest))).head? ≠ some '-' := by
    cases whole with
    | nil => cases isWholeText.nonempty rfl
    | cons c whole =>
      have digit := isWholeText.digits c List.mem_cons_self
      rintro ⟨⟩
      cases digit
  rw [List.append_assoc, List.append_assoc, List.append_assoc, number?_append _ unsigned, span,
    if_pos (isWhole_iff.mpr ⟨isWholeText.nonempty, isWholeText.unpadded⟩), isWholeText.value,
    fraction?_of_isFraction isFraction behindFraction]
  simp only [exponent?_of_isExponent isExponent fun c hc => ⟨(ended c hc).1, (ended c hc).2.2⟩,
    Option.bind_eq_bind, Option.bind_some]

/-- What is read as a number is one. -/
theorem exists_of_number? {text rest : List Char} {n : Number}
    (h : number? text = some (n, rest)) :
  ∃ front, text = front ++ rest ∧ IsNumber front n
  := by
  fun_cases number? text with
  | case1 negative unsigned signed whole behind span unpadded =>
    simp only [number?, signed, span, unpadded, if_true, Option.bind_eq_bind] at h
    obtain ⟨⟨fraction, behind'⟩, readFraction, h⟩ := Option.bind_eq_some_iff.mp h
    obtain ⟨⟨exponent, rest'⟩, readExponent, h⟩ := Option.bind_eq_some_iff.mp h
    obtain ⟨rfl, rfl⟩ := Prod.mk.inj (Option.some.inj h)
    obtain ⟨rfl, all⟩ := exists_of_spanDigits span
    obtain ⟨fractionText, rfl, isFraction⟩ := exists_of_fraction? readFraction
    obtain ⟨exponentText, rfl, isExponent⟩ := exists_of_exponent? readExponent
    obtain ⟨nonempty, unpadded⟩ := isWhole_iff.mp unpadded
    use (if negative then ['-'] else []) ++ whole ++ fractionText ++ exponentText
    constructor
    · split at signed
      · obtain ⟨rfl, rfl⟩ := Prod.mk.inj signed
        simp
      · obtain ⟨rfl, rfl⟩ := Prod.mk.inj signed
        simp
    · exact IsNumber.mk (n := ⟨negative, _, _, _⟩) ⟨⟨nonempty, all⟩, unpadded, rfl⟩ isFraction
        isExponent
  | case2 negative unsigned signed whole behind span padded =>
    simp [number?, signed, span, padded] at h

/-! ### Strings -/

theorem hexDigit?_of_le {c : Char} (high : 0x80 ≤ c.toNat) :
  hexDigit? c = none
  := by
  rw [hexDigit?, if_neg, if_neg, if_neg]
  all_goals
    simp [Char.isDigit, Char.le_def, UInt32.le_iff_toNat_le]
    omega

theorem hexDigit?_eq_some_iff {c : Char} {n : Nat} :
  hexDigit? c = some n ↔ IsHexDigit c n
  := by
  constructor
  · intro h
    have all : ∀ i < 0x80, ∀ n ∈ hexDigit? (Char.ofNat i),
        lowerHexDigits[n]? = some (Char.ofNat i) ∨ upperHexDigits[n]? = some (Char.ofNat i) := by
      decide +kernel
    have ascii : c.toNat < 0x80 := by
      apply Nat.lt_of_not_le
      intro high
      rw [hexDigit?_of_le high] at h
      cases h
    have here := all c.toNat ascii n
    rw [Char.ofNat_toNat] at here
    apply here h
  · have lower : ∀ n < 16, lowerHexDigits[n]?.bind hexDigit? = some n := by decide +kernel
    have upper : ∀ n < 16, upperHexDigits[n]?.bind hexDigit? = some n := by decide +kernel
    rintro (h | h)
    · have here := lower n (List.getElem?_eq_some_iff.mp h).1
      rwa [h] at here
    · have here := upper n (List.getElem?_eq_some_iff.mp h).1
      rwa [h] at here

/-- Four hexadecimal digits denote a code unit. -/
theorem unit?_eq_some_iff {a b c d : Char} {unit : Nat} :
  unit? a b c d = some unit
    ↔ ∃ i j k l, IsHexDigit a i ∧ IsHexDigit b j ∧ IsHexDigit c k ∧ IsHexDigit d l
      ∧ ((i * 16 + j) * 16 + k) * 16 + l = unit
  := by
  simp only [unit?, Option.bind_eq_bind, Option.bind_eq_some_iff, hexDigit?_eq_some_iff,
    Option.some.injEq]
  constructor
  · rintro ⟨i, ha, j, hb, k, hc, l, hd, rfl⟩
    use i, j, k, l, ha, hb, hc, hd
  · rintro ⟨i, j, k, l, ha, hb, hc, hd, rfl⟩
    use i, ha, j, hb, k, hc, l, hd

theorem escaped?_eq_some_iff {letter c : Char} :
  escaped? letter = some c ↔ (letter, c) ∈ escapes
  := by
  fun_cases escaped? letter <;> simp_all [escapes, eq_comm]

/-- A string is read up to its closing quote. -/
theorem string?_of_isString {text rest : List Char} {units : List Nat} (h : IsString text units) :
  string? (text ++ '"' :: rest) = some (units, rest)
  := by
  induction h with
  | nil => rfl
  | @plain c text units printable quote backslash _ ih =>
    rw [List.cons_append, string?, ih, if_neg (not_or.mpr ⟨Nat.not_lt_of_le printable, backslash⟩)]
    · rfl
    · apply quote
    · intro _ _ _ _ _ here
      cases backslash here
    · intro _ _ here
      cases backslash here
  | @escape letter c text units listed _ ih =>
    have escaped := escaped?_eq_some_iff.mpr listed
    rw [List.cons_append, List.cons_append, string?, escaped, ih]
    · rfl
    · rintro _ _ _ _ _ rfl
      cases escaped
  | unit a b c d _ ih =>
    have unit := unit?_eq_some_iff.mpr ⟨_, _, _, _, a, b, c, d, rfl⟩
    simp only [List.cons_append, string?, unit, ih, Option.bind_eq_bind, Option.bind_some]

/-- What is read as a string is one, up to its closing quote. -/
theorem exists_of_string? {text rest : List Char} {units : List Nat}
    (h : string? text = some (units, rest)) :
  ∃ front, text = front ++ '"' :: rest ∧ IsString front units
  := by
  fun_induction string? text generalizing units with
  | case1 text =>
    obtain ⟨rfl, rfl⟩ := Prod.mk.inj (Option.some.inj h)
    use [], rfl, IsString.nil
  | case2 a b c d text ih =>
    obtain ⟨unit, digits, h⟩ := Option.bind_eq_some_iff.mp h
    obtain ⟨⟨units', rest'⟩, behind, h⟩ := Option.bind_eq_some_iff.mp h
    obtain ⟨rfl, rfl⟩ := Prod.mk.inj (Option.some.inj h)
    obtain ⟨front, rfl, isString⟩ := ih behind
    obtain ⟨i, j, k, l, ha, hb, hc, hd, rfl⟩ := unit?_eq_some_iff.mp digits
    use '\\' :: 'u' :: a :: b :: c :: d :: front, rfl
    apply IsString.unit ha hb hc hd isString
  | case3 letter text _ ih =>
    obtain ⟨c, escaped, h⟩ := Option.bind_eq_some_iff.mp h
    obtain ⟨⟨units', rest'⟩, behind, h⟩ := Option.bind_eq_some_iff.mp h
    obtain ⟨rfl, rfl⟩ := Prod.mk.inj (Option.some.inj h)
    obtain ⟨front, rfl, isString⟩ := ih behind
    use '\\' :: letter :: front, rfl
    apply IsString.escape (escaped?_eq_some_iff.mp escaped) isString
  | case4 => cases h
  | case5 c text quote _ _ plain ih =>
    obtain ⟨⟨units', rest'⟩, behind, h⟩ := Option.bind_eq_some_iff.mp h
    obtain ⟨rfl, rfl⟩ := Prod.mk.inj (Option.some.inj h)
    obtain ⟨front, rfl, isString⟩ := ih behind
    obtain ⟨printable, backslash⟩ := not_or.mp plain
    use c :: front, rfl
    apply IsString.plain (Nat.le_of_not_lt printable) quote backslash isString
  | case6 => cases h

end ImageRefs.Json
