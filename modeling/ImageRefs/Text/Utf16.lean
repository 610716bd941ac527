/-!
# UTF-16 text

A text in UTF-16 is a list of code units below `2 ^ 16`.  Characters above U+FFFF take
two units, a high surrogate and a low one.  `encode` writes a text, and `decode?` reads
units back and refuses surrogates that do not make up a pair.
-/

namespace ImageRefs.Utf16

/-- The code units of a character. -/
def encodeChar (c : Char) : List Nat :=
  if c.toNat < 0x10000 then [c.toNat]
  else [0xD800 + (c.toNat - 0x10000) / 0x400, 0xDC00 + (c.toNat - 0x10000) % 0x400]

/-- The code units of a text. -/
def encode (text : List Char) : List Nat :=
  text.flatMap encodeChar

/-- Whether a unit is the first of a pair. -/
def isHigh (unit : Nat) : Bool :=
  decide (0xD800 ≤ unit) && decide (unit < 0xDC00)

/-- Whether a unit is the second of a pair. -/
def isLow (unit : Nat) : Bool :=
  decide (0xDC00 ≤ unit) && decide (unit < 0xE000)

/-- The characters of a list of units, if its surrogates come in pairs. -/
def decode? : List Nat → Option (List Char)
  | [] => some []
  | high :: low :: units =>
    if isHigh high then
      if isLow low then
        (decode? units).map
          (Char.ofNat (0x10000 + (high - 0xD800) * 0x400 + (low - 0xDC00)) :: ·)
      else none
    else if isLow high then none
    else (decode? (low :: units)).map (Char.ofNat high :: ·)
  | [unit] => if isHigh unit || isLow unit then none else some [Char.ofNat unit]

end ImageRefs.Utf16
