/-!
# UTF-8 text

`decode` reads bytes as UTF-8.  Bytes that are not UTF-8 stand in its result as gaps, one
for each maximal run of bytes that begins a character but cannot be completed, and one
for each byte that cannot begin a character.  `decodeLossy` puts the replacement
character U+FFFD in the place of each gap, and `decode?` refuses bytes that leave one.
-/

namespace ImageRefs.Utf8

/-- A character of which the leading bytes have been read: how many bytes it still needs
after the next one, the range in which the next one must lie, and the code so far. -/
structure Open where
  owed : Nat
  low : Nat
  high : Nat
  code : Nat
  deriving Repr, DecidableEq

/-- What a byte is between characters. -/
inductive Lead where
  | single (c : Char)
  | opening (o : Open)
  | invalid
  deriving Repr, DecidableEq

/-- The character that a byte begins.  The range of the second byte leaves out codes with
a shorter form, surrogates, and codes above U+10FFFF. -/
def lead (byte : UInt8) : Lead :=
  let b := byte.toNat
  if b < 0x80 then .single (Char.ofNat b)
  else if b < 0xC2 then .invalid
  else if b < 0xE0 then .opening ⟨0, 0x80, 0xBF, b - 0xC0⟩
  else if b = 0xE0 then .opening ⟨1, 0xA0, 0xBF, 0⟩
  else if b = 0xED then .opening ⟨1, 0x80, 0x9F, b - 0xE0⟩
  else if b < 0xF0 then .opening ⟨1, 0x80, 0xBF, b - 0xE0⟩
  else if b = 0xF0 then .opening ⟨2, 0x90, 0xBF, 0⟩
  else if b < 0xF4 then .opening ⟨2, 0x80, 0xBF, b - 0xF0⟩
  else if b = 0xF4 then .opening ⟨2, 0x80, 0x8F, b - 0xF0⟩
  else .invalid

/-- The characters of a list of bytes, a gap being `none`, when the characters before
them leave `opened` unfinished. -/
def decodeFrom (opened : Option Open) : List UInt8 → List (Option Char)
  | [] => if opened.isSome then [none] else []
  | byte :: bytes =>
    let fresh := fun (_ : Unit) =>
      match lead byte with
      | .single c => some c :: decodeFrom none bytes
      | .opening o => decodeFrom (some o) bytes
      | .invalid => none :: decodeFrom none bytes
    match opened with
    | none => fresh ()
    | some o =>
      if o.low ≤ byte.toNat ∧ byte.toNat ≤ o.high then
        let code := o.code * 64 + (byte.toNat - 0x80)
        match o.owed with
        | 0 => some (Char.ofNat code) :: decodeFrom none bytes
        | owed + 1 => decodeFrom (some ⟨owed, 0x80, 0xBF, code⟩) bytes
      else
        none :: fresh ()

/-- The characters of a list of bytes, with `none` for each gap. -/
def decode (bytes : List UInt8) : List (Option Char) :=
  decodeFrom none bytes

/-- The text of a list of bytes, with U+FFFD for each gap. -/
def decodeLossy (bytes : List UInt8) : String :=
  String.ofList ((decode bytes).map (·.getD '\uFFFD'))

/-- The characters of a list of bytes, if it is UTF-8 throughout. -/
def decode? (bytes : List UInt8) : Option (List Char) :=
  (decode bytes).mapM id

end ImageRefs.Utf8
