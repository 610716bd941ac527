import ImageRefs.Json.Print
import ImageRefs.Json.Parse
import ImageRefs.Bytes.Basic
import ImageRefs.Width

/-!
# References

A reference is a field of the image that encodes an address.  There are two kinds: fields
that hold an absolute address and are patched by a base relocation, and the displacements
of relative branches.
-/

namespace ImageRefs

open Json

/-- The kinds of references. -/
inductive ReferenceKind where
  | reloc
  | rel32
  deriving Repr, DecidableEq

namespace ReferenceKind

/-- All kinds, in order. -/
def all : List ReferenceKind := [.reloc, .rel32]

/-- The place of a kind in the order. -/
def rank : ReferenceKind → Nat
  | .reloc => 0
  | .rel32 => 1

/-- The name of a kind in running text. -/
def label : ReferenceKind → String
  | .reloc => "reloc"
  | .rel32 => "rel32"

/-- The name of a kind in data. -/
def tag : ReferenceKind → String
  | .reloc => "Reloc"
  | .rel32 => "Rel32"

/-- The number of bytes of a field of this kind in an image of a given width. -/
def fieldWidth (kind : ReferenceKind) (width : Width) : Nat :=
  match kind with
  | .reloc => width.bytes
  | .rel32 => displacementWidth

/-- Kinds in order. -/
def sort (kinds : List ReferenceKind) : List ReferenceKind :=
  kinds.mergeSort fun a b => decide (a.rank ≤ b.rank)

/-- A list of kinds as JSON text. -/
def listText (kinds : List ReferenceKind) : String :=
  String.ofList (Value.array (kinds.map fun kind => .text kind.tag)).compact

/-- The description of the references of one kind, whose fields have `size` bytes. -/
def describe (kind : ReferenceKind) (size : Nat) : String :=
  s!"ReferenceGroup \x7b traits: ReferenceTypeTraits \x7b width: {size}, kind: "
    ++ kind.tag ++ " \x7d, .. \x7d"

end ReferenceKind

/-- A field that encodes an address: where it is in the file, and the absolute address. -/
structure Reference where
  location : Nat
  target : Nat
  deriving Repr, DecidableEq

namespace Reference

/-- The order of references: by location, then by target. -/
def le (a b : Reference) : Bool :=
  decide (a.location < b.location)
    || decide (a.location = b.location) && decide (a.target ≤ b.target)

/-- References in order. -/
def sort (references : List Reference) : List Reference :=
  references.mergeSort le

/-- The reference with a target that is higher by `delta`, modulo `2 ^ 64`. -/
def shift (delta : Nat) (r : Reference) : Reference :=
  { r with target := (r.target + delta) % space64 }

/-! ### Text -/

/-- The reference as a value. -/
def toJson (r : Reference) : Value :=
  .record [("location", .nat r.location), ("target", .nat r.target)]

/-- The reference that a value gives, with a location of 32 bits and a target of 64. -/
def ofJson? (v : Value) : Option Reference := do
  let fields ← v.fields? ["location", "target"]
  let location ← Value.field? fields "location" (Value.nat? space32)
  let target ← Value.field? fields "target" (Value.nat? space64)
  some ⟨location, target⟩

/-- A reference as JSON text. -/
def toText (r : Reference) : String :=
  String.ofList r.toJson.compact

/-- A list of references as JSON text. -/
def listText (references : List Reference) : String :=
  String.ofList (Value.array (references.map toJson)).compact

/-- The reference that a JSON text gives. -/
def ofText? (text : String) : Option Reference :=
  (parse? text.toList).bind ofJson?

end Reference

end ImageRefs
