import ImageRefs.Json.Value

/-!
# Reading JSON

`parse?` reads a text that is one JSON value with blanks around it.  The grammar is
strict: no leading zeros, no comma after the last element, no control characters in
strings, and escapes only of the kinds that JSON knows.  A `\u` escape stands for one
UTF-16 code unit and may stand alone.
-/

namespace ImageRefs.Json

/-- The characters that may stand between the parts of a value. -/
def isBlank (c : Char) : Bool :=
  c == ' ' || c == '\t' || c == '\n' || c == '\r'

/-- The text from its first character on that is not blank. -/
def skipBlanks (text : List Char) : List Char :=
  text.dropWhile isBlank

/-- What follows a word at the front of a text. -/
def afterWord? : (word : List Char) → List Char → Option (List Char)
  | [], text => some text
  | w :: word, c :: text => if c = w then afterWord? word text else none
  | _ :: _, [] => none

/-! ### Numbers -/

/-- The digits at the front of a text, and what follows them. -/
def spanDigits (text : List Char) : List Char × List Char :=
  (text.takeWhile Char.isDigit, text.dropWhile Char.isDigit)

/-- The fraction at the front of a text; there is none unless the text begins with a
point, behind which there must be a digit. -/
def fraction? : List Char → Option (Option (List Char) × List Char)
  | '.' :: text =>
    let (digits, rest) := spanDigits text
    if digits.isEmpty then none else some (some digits, rest)
  | text => some (none, text)

/-- The sign at the front of a text, if any; the result tells whether it is a minus. -/
def signOf : List Char → Bool × List Char
  | '-' :: text => (true, text)
  | '+' :: text => (false, text)
  | text => (false, text)

/-- The exponent at the front of a text; there is none unless the text begins with `e` or
`E`, behind which there must be a digit, with or without a sign. -/
def exponent? : List Char → Option (Option (Bool × List Char) × List Char)
  | c :: text =>
    if c == 'e' || c == 'E' then
      let (negative, unsigned) := signOf text
      let (digits, rest) := spanDigits unsigned
      if digits.isEmpty then none else some (some (negative, digits), rest)
    else
      some (none, c :: text)
  | [] => some (none, [])

/-- Whether digits are those of a whole number: there are some, and the first is zero
only if it is the only one. -/
def isWhole (digits : List Char) : Bool :=
  match digits with
  | [] => false
  | '0' :: rest => rest.isEmpty
  | _ => true

/-- The number at the front of a text. -/
def number? (text : List Char) : Option (Number × List Char) :=
  let (negative, unsigned) :=
    match text with
    | '-' :: rest => (true, rest)
    | _ => (false, text)
  let (digits, rest) := spanDigits unsigned
  if isWhole digits then do
    let (fraction, rest) ← fraction? rest
    let (exponent, rest) ← exponent? rest
    some (⟨negative, Nat.ofDigitChars 10 digits 0, fraction, exponent⟩, rest)
  else
    none

/-! ### Strings -/

/-- The value of a hexadecimal digit. -/
def hexDigit? (c : Char) : Option Nat :=
  if c.isDigit then some (c.toNat - '0'.toNat)
  else if 'a' ≤ c ∧ c ≤ 'f' then some (c.toNat - 'a'.toNat + 10)
  else if 'A' ≤ c ∧ c ≤ 'F' then some (c.toNat - 'A'.toNat + 10)
  else none

/-- The code unit that four hexadecimal digits denote. -/
def unit? (a b c d : Char) : Option Nat := do
  let a ← hexDigit? a
  let b ← hexDigit? b
  let c ← hexDigit? c
  let d ← hexDigit? d
  some (((a * 16 + b) * 16 + c) * 16 + d)

/-- The character that a backslash and a letter stand for. -/
def escaped? : Char → Option Char
  | '"' => some '"'
  | '\\' => some '\\'
  | '/' => some '/'
  | 'b' => some '\x08'
  | 'f' => some '\x0c'
  | 'n' => some '\n'
  | 'r' => some '\r'
  | 't' => some '\t'
  | _ => none

/-- The code units of a string whose opening quote has been read, and what follows the
closing quote. -/
def string? : List Char → Option (List Nat × List Char)
  | '"' :: text => some ([], text)
  | '\\' :: 'u' :: a :: b :: c :: d :: text => do
    let unit ← unit? a b c d
    let (units, rest) ← string? text
    some (unit :: units, rest)
  | '\\' :: c :: text => do
    let c ← escaped? c
    let (units, rest) ← string? text
    some (Utf16.encodeChar c ++ units, rest)
  | c :: text =>
    if c.toNat < 0x20 ∨ c = '\\' then none
    else do
      let (units, rest) ← string? text
      some (Utf16.encodeChar c ++ units, rest)
  | [] => none

/-! ### Values -/

mutual

/-- The value at the front of a text, behind blanks, and what follows it.  Each step into
a value, and from an element to the next, takes one unit of fuel. -/
def value? : (fuel : Nat) → List Char → Option (Value × List Char)
  | 0, _ => none
  | fuel + 1, text =>
    match skipBlanks text with
    | '[' :: text =>
      match skipBlanks text with
      | ']' :: rest => some (.array [], rest)
      | text => (items? fuel text).map fun p => (.array p.1, p.2)
    | '{' :: text =>
      match skipBlanks text with
      | '}' :: rest => some (.object [], rest)
      | text => (members? fuel text).map fun p => (.object p.1, p.2)
    | '"' :: text => (string? text).map fun p => (.string p.1, p.2)
    | 'n' :: text => (afterWord? ['u', 'l', 'l'] text).map fun rest => (.null, rest)
    | 't' :: text => (afterWord? ['r', 'u', 'e'] text).map fun rest => (.bool true, rest)
    | 'f' :: text =>
      (afterWord? ['a', 'l', 's', 'e'] text).map fun rest => (.bool false, rest)
    | text => (number? text).map fun p => (.number p.1, p.2)

/-- One element of an array and those behind it, and what follows the closing bracket. -/
def items? : (fuel : Nat) → List Char → Option (List Value × List Char)
  | 0, _ => none
  | fuel + 1, text => do
    let (item, rest) ← value? fuel text
    match skipBlanks rest with
    | ',' :: rest => (items? fuel rest).map fun p => (item :: p.1, p.2)
    | ']' :: rest => some ([item], rest)
    | _ => none

/-- One member of an object and those behind it, and what follows the closing brace. -/
def members? : (fuel : Nat) → List Char → Option (List (List Nat × Value) × List Char)
  | 0, _ => none
  | fuel + 1, text =>
    match skipBlanks text with
    | '"' :: text => do
      let (key, rest) ← string? text
      match skipBlanks rest with
      | ':' :: rest => do
        let (value, rest) ← value? fuel rest
        match skipBlanks rest with
        | ',' :: rest => (members? fuel rest).map fun p => ((key, value) :: p.1, p.2)
        | '}' :: rest => some ([(key, value)], rest)
        | _ => none
      | _ => none
    | _ => none

end

/-- The value that a text is.  Every other step of fuel reads a character, so twice the
length of the text is enough. -/
def parse? (text : List Char) : Option Value :=
  match value? (2 * text.length + 2) text with
  | some (value, rest) => if (skipBlanks rest).isEmpty then some value else none
  | none => none

end ImageRefs.Json
