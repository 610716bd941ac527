import ImageRefs.Branch.Gap
import ImageRefs.Branch.Scanner
import ImageRefs.Reference.Read
import ImageRefs.Reloc.Table

/-!
# The branches of an image

The code sections of an image are scanned for relative branches, each in the gaps between
the fields that base relocations patch.  A branch is accepted if its target is a valid
RVA; a conditional branch may be required to stay in its section instead.  Sections may
share bytes of the file, so of the locations found those are kept, from the lowest on,
whose fields do not overlap.
-/

namespace ImageRefs

/-- The file offsets of a section that are loaded. -/
def Section.scanRegion (s : Section) : Region :=
  ⟨s.rawOffset, min s.virtualSize s.rawSize⟩

namespace Image

/-- The recogniser of the branches of the image. -/
def finder (image : Image) : Finder :=
  Finder.ofWidth image.width image.options.branches.ripRelative

/-- Whether a branch found in a section is accepted. -/
def accepts (image : Image) (s : Section) (c : Candidate) : Bool :=
  match image.addressSpace.storedTarget? image.bytes c.location with
  | none => false
  | some rva =>
    if c.mayLeaveSection || !image.options.branches.stayInSection then
      image.loadMap.validRva rva
    else
      s.containsRva rva

/-- The branches accepted in a region of a section. -/
def branchesIn (image : Image) (s : Section) (region : Region) : List Candidate :=
  (Scanner.ofRegion image.finder image.bytes region).accepted (image.accepts s)

/-- The branches accepted in a section, outside the absolute fields at the given ascending
locations. -/
def sectionBranches (image : Image) (avoided : List Nat) (s : Section) : List Candidate :=
  (Gap.ofRegion image.width.bytes s.scanRegion avoided).flatMap (image.branchesIn s)

/-- The locations of the displacements of the accepted branches, outside the absolute
fields at the given ascending locations. -/
def branchesAround (image : Image) (avoided : List Nat) : List Nat :=
  Locations.spaced displacementWidth
    (image.codeSections.flatMap fun s =>
      (image.sectionBranches avoided s).map (·.location))

/-- The locations of the absolute fields that a scan for branches leaves out. -/
def avoidedLocations (image : Image) : List Nat :=
  if image.options.branches.avoidRelocations then image.relocTable.locations else []

/-- The locations of the displacements of the accepted branches. -/
def branchLocations (image : Image) : List Nat :=
  image.branchesAround image.avoidedLocations

/-- The locations of the fields of a kind. -/
def locations (image : Image) : ReferenceKind → List Nat
  | .reloc => image.relocTable.locations
  | .rel32 => image.branchLocations

/-- The references of a kind with a location from `low` up to, and without, `high`. -/
def references (image : Image) (kind : ReferenceKind) (low high : Nat) : List Reference :=
  image.addressSpace.readAll kind image.bytes
    (Locations.within low high (image.locations kind))

end Image

end ImageRefs
