import ImageRefs.Json.Print
import ImageRefs.Proofs.Json.Fields
import ImageRefs.Proofs.Json.Parse

/-!
# Reading what is written

What is written for a value is a text of that value in the grammar, however it is laid out
(`Value.isValue_render`), so that it is read back as that value (`Value.parse?_compact`,
`Value.parse?_pretty`) and no two values are written as the same text.  This holds of the values
that can be written: the digits of their numbers are digits, and the units of their strings have
16 bits.  They are the values that are read from some text (`Value.writable_iff`).
-/

namespace ImageRefs.Json

/-! ### Numbers -/

/-- A number whose digits are digits. -/
structure Number.Writable (n : Number) : Prop where
  fraction : ∀ digits ∈ n.fraction, IsDigits digits
  exponent : ∀ e ∈ n.exponent, IsDigits e.2

theorem Number.writable_ofNat (n : Nat) :
  (Number.ofNat n).Writable
  := by
  constructor
  · rintro _ ⟨⟩
  · rintro _ ⟨⟩

/-- The digits of a number that is not zero do not begin with zero. -/
theorem head?_toDigits_ne {n : Nat} (h : 0 < n) :
  (Nat.toDigits 10 n).head? ≠ some '0'
  := by
  induction n using Nat.strongRecOn with
  | ind n ih =>
    by_cases small : n < 10
    · rw [Nat.toDigits_of_lt_base small, List.head?_cons, ne_eq, Option.some.injEq,
        Nat.digitChar_eq_zero]
      omega
    · rw [Nat.toDigits_of_base_le (by decide) (by omega),
        List.head?_append_of_ne_nil _ Nat.toDigits_ne_nil]
      apply ih
      · omega
      · omega

theorem isWholeText_toDigits (n : Nat) :
  IsWholeText (Nat.toDigits 10 n) n
  := by
  constructor
  · constructor
    · apply Nat.toDigits_ne_nil
    · intro c hc
      apply Nat.isDigit_of_mem_toDigits (by decide) (by decide) hc
  · intro zero
    rcases Nat.eq_zero_or_pos n with rfl | pos
    · apply Nat.toDigits_zero
    · cases head?_toDigits_ne pos zero
  · apply Nat.ofDigitChars_ten_toDigits

theorem Number.isNumber_render {n : Number} (h : n.Writable) :
  IsNumber n.render n
  := by
  have isFraction : IsFraction (n.fraction.elim [] fun digits => '.' :: digits) n.fraction := by
    cases given : n.fraction with
    | none => apply IsFraction.none
    | some digits => apply IsFraction.some (h.fraction digits given)
  have isExponent : IsExponent
      (n.exponent.elim [] fun e => (if e.1 then ['e', '-'] else ['e']) ++ e.2) n.exponent := by
    cases given : n.exponent with
    | none => apply IsExponent.none
    | some e =>
      obtain ⟨negative, digits⟩ := e
      have isDigits := h.exponent _ given
      cases negative with
      | true => apply IsExponent.some (e := 'e') (by decide) IsSign.minus isDigits
      | false => apply IsExponent.some (e := 'e') (by decide) IsSign.none isDigits
  exact IsNumber.mk (isWholeText_toDigits n.whole) isFraction isExponent

/-- The digits of a number that has a text are digits. -/
theorem Number.writable_of_isNumber {text : List Char} {n : Number} (h : IsNumber text n) :
  n.Writable
  := by
  obtain ⟨-, isFraction, isExponent⟩ := h
  constructor
  · intro digits given
    rw [Option.mem_def.mp given] at isFraction
    cases isFraction with
    | some isDigits => exact isDigits
  · intro e given
    rw [Option.mem_def.mp given] at isExponent
    cases isExponent with
    | some _ _ isDigits => exact isDigits

/-! ### Strings -/

theorem isHexDigit_digitChar {n : Nat} (h : n < 16) :
  IsHexDigit n.digitChar n
  := by
  have all : ∀ n < 16, lowerHexDigits[n]? = some n.digitChar := by decide
  left
  apply all n h

/-- The last digit of digits with zeros in front is that of the number, and those before it are
those of the number without it. -/
theorem replicate_append_toDigits (width n : Nat) :
  List.replicate (width + 2 - (Nat.toDigits 16 n).length) '0' ++ Nat.toDigits 16 n
    = List.replicate (width + 1 - (Nat.toDigits 16 (n / 16)).length) '0'
        ++ Nat.toDigits 16 (n / 16) ++ [(n % 16).digitChar]
  := by
  by_cases small : n < 16
  -- The number without its only digit is zero, and the digit of zero is one of the zeros in front.
  · rw [Nat.toDigits_of_lt_base small, Nat.div_eq_of_lt small, Nat.mod_eq_of_lt small,
      Nat.toDigits_zero, ← List.replicate_succ']
    rfl
  · have length : (Nat.toDigits 16 n).length = (Nat.toDigits 16 (n / 16)).length + 1 := by
      rw [Nat.toDigits_of_base_le (by decide) (by omega), List.length_append]
      rfl
    have zeros : width + 2 - (Nat.toDigits 16 n).length
        = width + 1 - (Nat.toDigits 16 (n / 16)).length := by
      omega
    rw [zeros, Nat.toDigits_of_base_le (by decide) (by omega : 16 ≤ n), List.append_assoc]

/-- The escape of a unit has four digits. -/
theorem escapeUnit_eq {unit : Nat} (h : unit < 0x10000) :
  escapeUnit unit = ['\\', 'u', (unit / 16 / 16 / 16).digitChar, (unit / 16 / 16 % 16).digitChar,
    (unit / 16 % 16).digitChar, (unit % 16).digitChar]
  := by
  rw [escapeUnit, replicate_append_toDigits 2, replicate_append_toDigits 1,
    replicate_append_toDigits 0, Nat.toDigits_of_lt_base (by omega : unit / 16 / 16 / 16 < 16)]
  rfl

theorem isString_renderUnit {unit : Nat} {text : List Char} {units : List Nat}
    (h : unit < 0x10000) (behind : IsString text units) :
  IsString (renderUnit unit ++ text) (unit :: units)
  := by
  rw [renderUnit]
  split
  · next quote =>
    subst quote
    have listed : ('"', '"') ∈ escapes := by decide
    apply IsString.escape listed behind
  split
  · next backslash =>
    subst backslash
    have listed : ('\\', '\\') ∈ escapes := by decide
    apply IsString.escape listed behind
  split
  · next quote backslash printable =>
    have point : (Char.ofNat unit).toNat = unit := Utf16.toNat_ofNat (by omega)
    have alone : Utf16.encodeChar (Char.ofNat unit) = [unit] := by
      rw [Utf16.encodeChar, point, if_pos h]
    have plain := IsString.plain (c := Char.ofNat unit) (by rw [point]; exact printable.1)
      (by rintro same; rw [← same, point] at quote; exact quote rfl)
      (by rintro same; rw [← same, point] at backslash; exact backslash rfl) behind
    rw [alone] at plain
    exact plain
  · have escaped := IsString.unit (isHexDigit_digitChar (n := unit / 16 / 16 / 16) (by omega))
      (isHexDigit_digitChar (n := unit / 16 / 16 % 16) (by omega))
      (isHexDigit_digitChar (n := unit / 16 % 16) (by omega))
      (isHexDigit_digitChar (n := unit % 16) (by omega)) behind
    have value : ((unit / 16 / 16 / 16 * 16 + unit / 16 / 16 % 16) * 16 + unit / 16 % 16) * 16
        + unit % 16 = unit := by
      omega
    rw [value] at escaped
    rw [escapeUnit_eq h]
    exact escaped

theorem isString_flatMap_renderUnit {units : List Nat} (h : ∀ unit ∈ units, unit < 0x10000) :
  IsString (units.flatMap renderUnit) units
  := by
  induction units with
  | nil => apply IsString.nil
  | cons unit units ih =>
    obtain ⟨here, rest⟩ := List.forall_mem_cons.mp h
    rw [List.flatMap_cons]
    apply isString_renderUnit here (ih rest)

/-! ### Values -/

/-- A value whose numbers can be written, and whose strings and keys hold units of 16 bits. -/
inductive Value.Writable : Value → Prop where
  | null : Writable .null
  | bool (b : Bool) : Writable (.bool b)
  | number {n : Number} : n.Writable → Writable (.number n)
  | string {units : List Nat} : (∀ unit ∈ units, unit < 0x10000) → Writable (.string units)
  | array {items : List Value} : (∀ item ∈ items, Writable item) → Writable (.array items)
  | object {members : List (List Nat × Value)} : Bounded members →
    (∀ m ∈ members, Writable m.2) → Writable (.object members)

theorem exists_isElement_of_mem {text : List Char} {items : List Value}
    (h : IsElements text items) {item : Value} (hitem : item ∈ items) :
  ∃ text, IsElement text item
  := by
  induction items generalizing text with
  | nil => cases hitem
  | cons first items ih =>
    cases h with
    | one element =>
      rw [List.mem_singleton.mp hitem]
      exact ⟨_, element⟩
    | more element behind =>
      rcases List.mem_cons.mp hitem with rfl | tail
      · exact ⟨_, element⟩
      · apply ih behind tail

/-- A value that has a text can be written. -/
theorem Value.writable_of_isValue {text : List Char} {v : Value} (h : IsValue text v) :
  v.Writable
  := by
  cases h with
  | null => apply Writable.null
  | true => apply Writable.bool
  | false => apply Writable.bool
  | number isNumber => apply Writable.number (Number.writable_of_isNumber isNumber)
  | string isString => apply Writable.string (lt_of_isString isString)
  | emptyArray => apply Writable.array (List.forall_mem_nil _)
  | emptyObject => apply Writable.object (List.forall_mem_nil _) (List.forall_mem_nil _)
  | array elements =>
    apply Writable.array
    intro item hitem
    obtain ⟨_, -, isValue, -⟩ := exists_isElement_of_mem elements hitem
    apply Value.writable_of_isValue isValue
  | @object _ members isMembers =>
    apply Writable.object
    · intro m hm
      obtain ⟨_, -, isString, -, -⟩ := exists_isMember_of_mem isMembers hm
      apply lt_of_isString isString
    · rintro ⟨key, v⟩ hm
      obtain ⟨_, -, -, -, -, isValue, -⟩ := exists_isMember_of_mem isMembers hm
      have smaller : 1 + sizeOf key + sizeOf v < sizeOf members := List.sizeOf_lt_of_mem hm
      apply Value.writable_of_isValue isValue
termination_by sizeOf v

/-- A layout that sets the parts of a value apart by blanks. -/
structure Style.Blank (style : Style) : Prop where
  line : ∀ level, Blanks (style.line level)
  colon : ∃ before behind, Blanks before ∧ Blanks behind ∧ style.colon = before ++ ':' :: behind

theorem blanks_nil :
  Blanks []
  := by
  intro c hc
  cases hc

theorem Style.blank_compact :
  Style.compact.Blank
  := by
  constructor
  · intro level
    apply blanks_nil
  · use [], [], blanks_nil, blanks_nil
    rfl

theorem Style.blank_pretty :
  Style.pretty.Blank
  := by
  constructor
  · intro level c hc
    rcases List.mem_cons.mp hc with rfl | indent
    · decide
    · rw [(List.mem_replicate.mp indent).2]
      decide
  · use [], [' '], blanks_nil
    constructor
    · intro c hc
      rw [List.mem_singleton.mp hc]
      decide
    · rfl

variable {style : Style} {level : Nat} {before behind : List Char}

/-- A value and those behind it are set apart by commas. -/
theorem isElements_renderItems {item : Value} {items : List Value} (blank : style.Blank)
    (h : ∀ v ∈ item :: items, IsValue (v.render style level) v) (hbefore : Blanks before)
    (hbehind : Blanks behind) :
  IsElements (before ++ item.render style level ++ renderItems style level items ++ behind)
    (item :: items)
  := by
  -- Each item behind the first brings the comma before it and the beginning of its line.
  induction items generalizing item before with
  | nil =>
    rw [renderItems, List.append_nil]
    apply IsElements.one
    apply IsElement.mk hbefore (h item List.mem_cons_self) hbehind
  | cons next items ih =>
    obtain ⟨here, rest⟩ := List.forall_mem_cons.mp h
    have elements := IsElements.more (IsElement.mk hbefore here blanks_nil)
      (ih rest (blank.line level))
    simpa [renderItems] using elements

theorem isMember_render {key : List Nat} {v : Value} {text : List Char} (blank : style.Blank)
    (hkey : ∀ unit ∈ key, unit < 0x10000) (h : IsValue text v) (hbefore : Blanks before)
    (hbehind : Blanks behind) :
  IsMember (before ++ renderString key ++ style.colon ++ text ++ behind) (key, v)
  := by
  obtain ⟨left, right, hleft, hright, colon⟩ := blank.colon
  have member := IsMember.mk hbefore (isString_flatMap_renderUnit hkey) hleft
    (IsElement.mk hright h hbehind)
  rw [colon]
  simpa [renderString] using member

/-- A member and those behind it are set apart by commas. -/
theorem isMembers_renderMembers {key : List Nat} {v : Value}
    {members : List (List Nat × Value)} (blank : style.Blank)
    (bounded : Bounded ((key, v) :: members))
    (h : ∀ m ∈ (key, v) :: members, IsValue (m.2.render style level) m.2)
    (hbefore : Blanks before) (hbehind : Blanks behind) :
  IsMembers (before ++ renderString key ++ style.colon ++ v.render style level
      ++ renderMembers style level members ++ behind)
    ((key, v) :: members)
  := by
  induction members generalizing key v before with
  | nil =>
    rw [renderMembers, List.append_nil]
    apply IsMembers.one
    apply isMember_render blank (bounded _ List.mem_cons_self) (h _ List.mem_cons_self) hbefore
      hbehind
  | cons next members ih =>
    obtain ⟨boundedHere, boundedRest⟩ := List.forall_mem_cons.mp bounded
    obtain ⟨here, rest⟩ := List.forall_mem_cons.mp h
    have members := IsMembers.more (isMember_render blank boundedHere here hbefore blanks_nil)
      (ih boundedRest rest (blank.line level))
    simpa [renderMembers] using members

/-- What is written for a value is a text of it. -/
theorem Value.isValue_render {v : Value} (blank : style.Blank) (h : v.Writable) (level : Nat) :
  IsValue (v.render style level) v
  := by
  induction h generalizing level with
  | null => apply IsValue.null
  | bool b =>
    cases b with
    | true => apply IsValue.true
    | false => apply IsValue.false
  | number writable => apply IsValue.number (Number.isNumber_render writable)
  | string bounded => apply IsValue.string (isString_flatMap_renderUnit bounded)
  | @array items _ ih =>
    cases items with
    | nil => apply IsValue.emptyArray blanks_nil
    | cons item items =>
      have elements := isElements_renderItems blank (fun v hv => ih v hv (level + 1))
        (blank.line (level + 1)) (blank.line level)
      apply IsValue.array elements
  | @object members bounded _ ih =>
    cases members with
    | nil => apply IsValue.emptyObject blanks_nil
    | cons m members =>
      have members := isMembers_renderMembers blank bounded (fun m hm => ih m hm (level + 1))
        (blank.line (level + 1)) (blank.line level)
      apply IsValue.object members

/-- A value is read back from its text, however it is laid out. -/
theorem Value.parse?_render {v : Value} (blank : style.Blank) (h : v.Writable) :
  parse? (v.render style level) = some v
  := by
  apply parse?_eq_some_iff.mpr
  have element := IsElement.mk blanks_nil (Value.isValue_render blank h level) blanks_nil
  simpa using element

theorem Value.parse?_compact {v : Value} (h : v.Writable) :
  parse? v.compact = some v
  := Value.parse?_render Style.blank_compact h

theorem Value.parse?_pretty {v : Value} (h : v.Writable) :
  parse? v.pretty = some v
  := Value.parse?_render Style.blank_pretty h

/-- The values that can be written are those that are read from some text. -/
theorem Value.writable_iff {v : Value} :
  v.Writable ↔ ∃ text, parse? text = some v
  := by
  constructor
  · intro h
    use v.compact, Value.parse?_compact h
  · rintro ⟨text, read⟩
    obtain ⟨-, isValue, -⟩ := parse?_eq_some_iff.mp read
    apply Value.writable_of_isValue isValue

/-- Different values are written as different texts. -/
theorem Value.eq_of_render_eq {v w : Value} (blank : style.Blank) (hv : v.Writable)
    (hw : w.Writable) (h : v.render style level = w.render style level) :
  v = w
  := by
  have read : parse? (v.render style level) = some v := Value.parse?_render blank hv
  rw [h, Value.parse?_render blank hw] at read
  exact (Option.some.inj read).symm

/-! ### Records -/

theorem bounded_keyed (texts : List (String × Value)) :
  Bounded (keyed texts)
  := by
  intro m hm unit hunit
  obtain ⟨t, -, rfl⟩ := List.mem_map.mp hm
  obtain ⟨c, -, hc⟩ := List.mem_flatMap.mp hunit
  apply Utf16.lt_of_mem_encodeChar hc

theorem Value.writable_record {texts : List (String × Value)}
    (h : ∀ t ∈ texts, t.2.Writable) :
  (Value.record texts).Writable
  := by
  apply Writable.object (bounded_keyed texts)
  intro m hm
  obtain ⟨t, ht, rfl⟩ := List.mem_map.mp hm
  apply h t ht

theorem Value.writable_nat (n : Nat) :
  (Value.nat n).Writable
  := Writable.number (Number.writable_ofNat n)

end ImageRefs.Json
