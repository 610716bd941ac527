import ImageRefs.Json.Value

/-!
# The grammar of JSON

Which texts are JSON texts, and of which value, said without reading them from left to right:

* `IsValue text v`: a text of the value `v`, without blanks around it;
* `IsElement text v`: the same with blanks around it, which is what a whole JSON text is;
* `IsElements`, `IsMember` and `IsMembers`: what stands between the brackets of an array and
  between the braces of an object, neither of which is empty here.

Blanks may stand before and behind each value, each key and each comma, and nowhere else.
-/

namespace ImageRefs.Json

/-- A text of nothing but blanks. -/
def Blanks (text : List Char) : Prop :=
  ∀ c ∈ text, c ∈ [' ', '\t', '\n', '\r']

/-! ### Numbers -/

/-- Decimal digits, at least one of them. -/
structure IsDigits (text : List Char) : Prop where
  nonempty : text ≠ []
  digits : ∀ c ∈ text, c.isDigit = true

/-- The digits of a whole number, the first of which is zero only if it is the only one. -/
structure IsWholeText (text : List Char) (n : Nat) : Prop extends IsDigits text where
  unpadded : text.head? = some '0' → text = ['0']
  value : Nat.ofDigitChars 10 text 0 = n

/-- The fraction of a number, if it has one. -/
inductive IsFraction : List Char → Option (List Char) → Prop where
  | none : IsFraction [] none
  | some {digits : List Char} : IsDigits digits → IsFraction ('.' :: digits) (some digits)

/-- The sign of an exponent, and whether it is a minus. -/
inductive IsSign : List Char → Bool → Prop where
  | none : IsSign [] false
  | plus : IsSign ['+'] false
  | minus : IsSign ['-'] true

/-- The exponent of a number, if it has one. -/
inductive IsExponent : List Char → Option (Bool × List Char) → Prop where
  | none : IsExponent [] none
  | some {e : Char} {sign digits : List Char} {negative : Bool} : e ∈ ['e', 'E'] →
    IsSign sign negative → IsDigits digits →
    IsExponent (e :: (sign ++ digits)) (some (negative, digits))

/-- A number: a minus if it is negative, a whole number, a fraction and an exponent. -/
inductive IsNumber : List Char → Number → Prop where
  | mk {whole fraction exponent : List Char} {n : Number} : IsWholeText whole n.whole →
    IsFraction fraction n.fraction → IsExponent exponent n.exponent →
    IsNumber ((if n.negative then ['-'] else []) ++ whole ++ fraction ++ exponent) n

/-! ### Strings -/

/-- The hexadecimal digits in lower case. -/
def lowerHexDigits : List Char :=
  ['0', '1', '2', '3', '4', '5', '6', '7', '8', '9', 'a', 'b', 'c', 'd', 'e', 'f']

/-- The hexadecimal digits in upper case. -/
def upperHexDigits : List Char :=
  ['0', '1', '2', '3', '4', '5', '6', '7', '8', '9', 'A', 'B', 'C', 'D', 'E', 'F']

/-- A hexadecimal digit, in lower or in upper case, and its value. -/
def IsHexDigit (c : Char) (n : Nat) : Prop :=
  lowerHexDigits[n]? = some c ∨ upperHexDigits[n]? = some c

/-- The letters that may stand behind a backslash, and the characters they stand for. -/
def escapes : List (Char × Char) :=
  [('"', '"'), ('\\', '\\'), ('/', '/'), ('b', '\x08'), ('f', '\x0c'), ('n', '\n'),
    ('r', '\r'), ('t', '\t')]

/-- What stands between the quotes of a string, and its code units.  An escape for a code unit
may stand for a surrogate, with or without the other one of its pair. -/
inductive IsString : List Char → List Nat → Prop where
  | nil : IsString [] []
  | plain {c : Char} {text : List Char} {units : List Nat} : 0x20 ≤ c.toNat → c ≠ '"' →
    c ≠ '\\' → IsString text units → IsString (c :: text) (Utf16.encodeChar c ++ units)
  | escape {letter c : Char} {text : List Char} {units : List Nat} : (letter, c) ∈ escapes →
    IsString text units →
    IsString ('\\' :: letter :: text) (Utf16.encodeChar c ++ units)
  | unit {a b c d : Char} {i j k l : Nat} {text : List Char} {units : List Nat} :
    IsHexDigit a i → IsHexDigit b j → IsHexDigit c k → IsHexDigit d l → IsString text units →
    IsString ('\\' :: 'u' :: a :: b :: c :: d :: text)
      ((((i * 16 + j) * 16 + k) * 16 + l) :: units)

/-! ### Values -/

mutual

/-- A text of a value, without blanks around it. -/
inductive IsValue : List Char → Value → Prop where
  | null : IsValue ['n', 'u', 'l', 'l'] .null
  | true : IsValue ['t', 'r', 'u', 'e'] (.bool true)
  | false : IsValue ['f', 'a', 'l', 's', 'e'] (.bool false)
  | number {text : List Char} {n : Number} : IsNumber text n → IsValue text (.number n)
  | string {text : List Char} {units : List Nat} : IsString text units →
    IsValue ('"' :: (text ++ ['"'])) (.string units)
  | emptyArray {blanks : List Char} : Blanks blanks → IsValue ('[' :: (blanks ++ [']'])) (.array [])
  | array {text : List Char} {items : List Value} : IsElements text items →
    IsValue ('[' :: (text ++ [']'])) (.array items)
  | emptyObject {blanks : List Char} : Blanks blanks →
    IsValue ('{' :: (blanks ++ ['}'])) (.object [])
  | object {text : List Char} {members : List (List Nat × Value)} : IsMembers text members →
    IsValue ('{' :: (text ++ ['}'])) (.object members)

/-- A text of a value, with blanks around it. -/
inductive IsElement : List Char → Value → Prop where
  | mk {before text behind : List Char} {v : Value} : Blanks before → IsValue text v →
    Blanks behind → IsElement (before ++ text ++ behind) v

/-- Texts of values, set apart by commas. -/
inductive IsElements : List Char → List Value → Prop where
  | one {text : List Char} {v : Value} : IsElement text v → IsElements text [v]
  | more {text texts : List Char} {v : Value} {items : List Value} : IsElement text v →
    IsElements texts items → IsElements (text ++ ',' :: texts) (v :: items)

/-- A key and a value, set apart by a colon. -/
inductive IsMember : List Char → List Nat × Value → Prop where
  | mk {before key behind text : List Char} {units : List Nat} {v : Value} : Blanks before →
    IsString key units → Blanks behind → IsElement text v →
    IsMember (before ++ '"' :: (key ++ '"' :: (behind ++ ':' :: text))) (units, v)

/-- Keys with values, set apart by commas. -/
inductive IsMembers : List Char → List (List Nat × Value) → Prop where
  | one {text : List Char} {m : List Nat × Value} : IsMember text m → IsMembers text [m]
  | more {text texts : List Char} {m : List Nat × Value} {members : List (List Nat × Value)} :
    IsMember text m → IsMembers texts members →
    IsMembers (text ++ ',' :: texts) (m :: members)

end

end ImageRefs.Json
