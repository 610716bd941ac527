import ImageRefs.Json.Value

/-!
# Writing JSON

A value is written without blanks by `compact`, and by `pretty` with one element to a
line, indented by two blanks for each level, and a blank behind each colon.  Strings are
written in ASCII, with other code units escaped.
-/

namespace ImageRefs.Json

/-- The text of a number. -/
def Number.render (n : Number) : List Char :=
  (if n.negative then ['-'] else []) ++ Nat.toDigits 10 n.whole
    ++ n.fraction.elim [] (fun digits => '.' :: digits)
    ++ n.exponent.elim [] fun e => (if e.1 then ['e', '-'] else ['e']) ++ e.2

/-- The escape of a code unit. -/
def escapeUnit (unit : Nat) : List Char :=
  let digits := Nat.toDigits 16 unit
  '\\' :: 'u' :: (List.replicate (4 - digits.length) '0' ++ digits)

/-- The text of a code unit inside a string. -/
def renderUnit (unit : Nat) : List Char :=
  if unit = '"'.toNat then ['\\', '"']
  else if unit = '\\'.toNat then ['\\', '\\']
  else if 0x20 ≤ unit ∧ unit < 0x7F then [Char.ofNat unit]
  else escapeUnit unit

/-- The text of a string. -/
def renderString (units : List Nat) : List Char :=
  '"' :: (units.flatMap renderUnit ++ ['"'])

/-- How the parts of a value are set apart: what stands at the beginning of a line at each
level, and what stands between a key and its value. -/
structure Style where
  line : (level : Nat) → List Char
  colon : List Char

/-- The layout without blanks. -/
def Style.compact : Style :=
  ⟨fun _ => [], [':']⟩

/-- The layout with one element to a line. -/
def Style.pretty : Style :=
  ⟨fun level => '\n' :: List.replicate (2 * level) ' ', [':', ' ']⟩

mutual

/-- The text of a value that stands at a level of nesting. -/
def Value.render (style : Style) (level : Nat) : Value → List Char
  | .null => ['n', 'u', 'l', 'l']
  | .bool true => ['t', 'r', 'u', 'e']
  | .bool false => ['f', 'a', 'l', 's', 'e']
  | .number n => n.render
  | .string units => renderString units
  | .array [] => ['[', ']']
  | .array (item :: items) =>
    '[' :: (style.line (level + 1) ++ Value.render style (level + 1) item
      ++ renderItems style (level + 1) items ++ style.line level ++ [']'])
  | .object [] => ['\x7b', '\x7d']
  | .object ((key, value) :: members) =>
    '\x7b' :: (style.line (level + 1) ++ renderString key ++ style.colon
      ++ Value.render style (level + 1) value
      ++ renderMembers style (level + 1) members ++ style.line level ++ ['\x7d'])

/-- The text of the elements of an array behind the first. -/
def renderItems (style : Style) (level : Nat) : List Value → List Char
  | [] => []
  | item :: items =>
    ',' :: (style.line level ++ Value.render style level item
      ++ renderItems style level items)

/-- The text of the members of an object behind the first. -/
def renderMembers (style : Style) (level : Nat) : List (List Nat × Value) → List Char
  | [] => []
  | (key, value) :: members =>
    ',' :: (style.line level ++ renderString key ++ style.colon
      ++ Value.render style level value ++ renderMembers style level members)

end

/-- The text of a value without blanks. -/
def Value.compact (v : Value) : List Char :=
  v.render .compact 0

/-- The text of a value with one element to a line. -/
def Value.pretty (v : Value) : List Char :=
  v.render .pretty 0

end ImageRefs.Json
