import ImageRefs.Address.LoadMap
import ImageRefs.Text.Utf8

/-!
# Sections

A section header tells which bytes of the file a section has and where they are loaded.
-/

namespace ImageRefs

/-- The size of a section header. -/
def sectionHeaderSize : Nat := 40

/-- The header of a section.  `rawName` has eight bytes. -/
structure Section where
  rawName : List UInt8
  virtualSize : Nat
  virtualAddress : Nat
  rawSize : Nat
  rawOffset : Nat
  characteristics : Nat
  deriving Repr, DecidableEq

namespace Section

/-- The characteristic of sections that hold code. -/
def codeFlag : Nat := 0x00000020

/-- The characteristic of sections that can be executed. -/
def executeFlag : Nat := 0x20000000

/-- The header whose bytes are given. -/
def ofBytes (bytes : List UInt8) : Section where
  rawName := bytes.take 8
  virtualSize := field bytes 8 4
  virtualAddress := field bytes 12 4
  rawSize := field bytes 16 4
  rawOffset := field bytes 20 4
  characteristics := field bytes 36 4

/-- The name, which ends before the first zero byte. -/
def name (s : Section) : String :=
  Utf8.decodeLossy (s.rawName.takeWhile (· != 0))

/-- Whether the section is loaded at an RVA. -/
def containsRva (s : Section) (rva : Nat) : Bool :=
  decide (s.virtualAddress ≤ rva) && decide (rva - s.virtualAddress < s.virtualSize)

/-- Whether the section holds code and can be executed. -/
def isCode (s : Section) : Bool :=
  s.characteristics &&& codeFlag == codeFlag
    && s.characteristics &&& executeFlag == executeFlag

/-- The first file offset past the bytes of the section. -/
def rawEnd (s : Section) : Nat :=
  s.rawOffset + s.rawSize

/-- The mapping between the file offsets and the RVAs of the section. -/
def mapping (s : Section) : Mapping :=
  ⟨s.rawOffset, s.rawSize, s.virtualAddress, s.virtualSize⟩

/-- The mapping of a section covers the RVAs at which the section is loaded. -/
theorem coversRva_mapping (s : Section) (rva : Nat) :
  s.mapping.coversRva rva = s.containsRva rva
  := rfl

end Section

end ImageRefs
