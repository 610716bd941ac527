import ImageRefs.Branch.Table
import ImageRefs.Image.Format
import ImageRefs.Reference.Write

/-!
# Sessions

A session is an image together with the tables that have been computed for it so far.
The table of base relocations and the table of branches are computed when they are first
asked for and kept from then on; the state of a table tells whether that has happened.
What a session answers does not depend on what has been asked before, its states apart.
-/

namespace ImageRefs

/-- How far a table has been computed. -/
inductive TableState where
  | notParsed
  | parsed
  /-- The table is malformed at some point, and what was read before it is kept. -/
  | parsedPartial
  deriving Repr, DecidableEq

/-- The name of a state in data. -/
def TableState.tag : TableState → String
  | .notParsed => "NotParsed"
  | .parsed => "Parsed"
  | .parsedPartial => "ParsedPartial"

/-- An image with the tables computed for it. -/
structure Session where
  image : Image
  relocs : Option RelocTable
  branches : Option (List Nat)
  deriving Repr, DecidableEq

namespace Session

/-- The session of an image for which nothing has been computed. -/
def start (image : Image) : Session :=
  ⟨image, none, none⟩

/-- The state of the table of a kind. -/
def state (s : Session) : ReferenceKind → TableState
  | .reloc =>
    match s.relocs with
    | none => .notParsed
    | some table => if table.complete then .parsed else .parsedPartial
  | .rel32 => if s.branches.isSome then .parsed else .notParsed

/-- The table of base relocations. -/
def relocTable (s : Session) : RelocTable × Session :=
  match s.relocs with
  | some table => (table, s)
  | none =>
    let table := s.image.relocTable
    (table, { s with relocs := some table })

/-- The locations of branches.  They are computed around the base relocations if the
options say so, which asks for the table of base relocations too. -/
def branchLocations (s : Session) : List Nat × Session :=
  match s.branches with
  | some locations => (locations, s)
  | none =>
    if s.image.options.branches.avoidRelocations then
      let (table, s) := s.relocTable
      let locations := s.image.branchesAround table.locations
      (locations, { s with branches := some locations })
    else
      let locations := s.image.branchesAround []
      (locations, { s with branches := some locations })

/-- The blocks of the base relocation table. -/
def blocks (s : Session) : List RelocBlock × Session :=
  let (table, s) := s.relocTable
  (table.blocks, s)

/-- The locations of the fields of a kind. -/
def locations (s : Session) : ReferenceKind → List Nat × Session
  | .reloc =>
    let (table, s) := s.relocTable
    (table.locations, s)
  | .rel32 => s.branchLocations

/-- The references of a kind with a location from `low` up to, and without, `high`. -/
def references (s : Session) (kind : ReferenceKind) (low high : Nat) :
    List Reference × Session :=
  let (locations, s) := s.locations kind
  (s.image.addressSpace.readAll kind s.image.bytes (Locations.within low high locations), s)

/-- The description of the session. -/
def describe (s : Session) : String :=
  "DisassemblerWin32 \x7b exe_type: " ++ s.image.width.formatTag
    ++ s!", size: {s.image.size}, image_base: " ++ hexLiteral s.image.imageBase
    ++ s!", sections: {s.image.sections.length}, reloc_state: " ++ (s.state .reloc).tag
    ++ ", rel32_state: " ++ (s.state .rel32).tag ++ ", .. \x7d"

end Session

end ImageRefs
