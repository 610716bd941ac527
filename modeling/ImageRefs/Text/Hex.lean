/-!
# Hexadecimal text

Numbers in base sixteen, with lower-case digits.
-/

namespace ImageRefs

/-- The hexadecimal digits of a number, without leading zeros; zero has the one digit `0`. -/
def hex (n : Nat) : String :=
  String.ofList (Nat.toDigits 16 n)

/-- The hexadecimal digits of a number, with zeros in front to make at least `width`
digits. -/
def paddedHex (width n : Nat) : String :=
  let digits := Nat.toDigits 16 n
  String.ofList (List.replicate (width - digits.length) '0' ++ digits)

/-- The hexadecimal digits of a number behind `0x`. -/
def hexLiteral (n : Nat) : String :=
  "0x" ++ hex n

end ImageRefs
