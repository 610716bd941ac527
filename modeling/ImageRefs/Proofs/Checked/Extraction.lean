import ImageRefs.Proofs.Checked.Scan

/-!
# Checked extraction

The base relocations, the branches and the references of a parsed image are computed without a
fault, for every kind and every window (`Checked.extraction_eq_ok`).  What this rests on has been
checked when the image was parsed: offsets in it have 32 bits (`Image.WellFormed`), and so have
the ends of all mappings (`Checked.bounded_of_parse`).
-/

namespace ImageRefs.Checked

/-- `AddressSpace.read?`, checked.  An absolute field is read without an operation that could
have a fault, since addresses are computed modulo the number of addresses. -/
def read (image : Image) (kind : ReferenceKind) (location : Nat) :
    Checked (Option Reference) :=
  match kind with
  | .reloc => .ok (image.addressSpace.readReloc? image.bytes location)
  | .rel32 =>
    match image.bytes.read? displacementWidth location with
    | none => .ok none
    | some word => do
      let target ← relativeTarget image.addressSpace location (signed32 word)
      .ok ((target.filter image.loadMap.validRva).map fun rva =>
        ⟨location, image.addressSpace.rvaToAddress rva⟩)

/-- `Image.locations`, checked. -/
def locations (image : Image) : ReferenceKind → Checked (List Nat)
  | .reloc => do
    let table ← relocTable image
    .ok table.locations
  | .rel32 => branchLocations image

/-- `Image.references`, checked. -/
def references (image : Image) (kind : ReferenceKind) (low high : Nat) :
    Checked (List Reference) := do
  let all ← locations image kind
  let selected ← within low high all
  let found ← selected.mapM (read image kind)
  .ok (found.filterMap id)

section

variable {image : Image} (small : image.bytes.size < space32)
  (bounded : ∀ m ∈ image.loadMap.mappings, m.Bounded)
include bounded

theorem read_eq_ok (kind : ReferenceKind) (location : Nat) :
  read image kind location = .ok (image.addressSpace.read? kind image.bytes location)
  := by
  cases kind with
  | reloc => rfl
  | rel32 =>
    rw [read, AddressSpace.read?, AddressSpace.readRel32?, AddressSpace.storedTarget?]
    cases image.bytes.read? displacementWidth location with
    | none => rfl
    | some word =>
      dsimp only
      rw [relativeTarget_eq_ok bounded rfl, ok_bind, Option.bind_some]
      rfl

include small

theorem locations_eq_ok (kind : ReferenceKind) :
  locations image kind = .ok (image.locations kind)
  := by
  cases kind with
  | reloc =>
    rw [locations, relocTable_eq_ok small bounded, ok_bind]
    rfl
  | rel32 => apply branchLocations_eq_ok small bounded

theorem references_eq_ok (kind : ReferenceKind) (low high : Nat) :
  references image kind low high = .ok (image.references kind low high)
  := by
  rw [references, locations_eq_ok small bounded, ok_bind, within_eq_ok, ok_bind,
    mapM_eq_ok fun location _ => read_eq_ok bounded kind location, ok_bind, List.filterMap_map]
  rfl

end

variable {width : Width} {options : Options} {data : Bytes} {image : Image}

/-- The ends of the mappings of a parsed image have 32 bits. -/
theorem bounded_of_parse (h : Image.parse width options data = .ok image) :
  ∀ m ∈ image.loadMap.mappings, m.Bounded
  := by
  obtain ⟨-, _, _, _, layout, _, -, -, -, -, -, hloadMap, rfl⟩ := Image.parse_eq_ok_iff.mp h
  obtain ⟨bounded, rfl⟩ := LoadMap.ofMappings_eq_ok_iff.mp hloadMap
  apply bounded

/-- No checked evaluation for a parsed image has a fault, and each computes what the image has.

* The table of base relocations, the locations of branches, and the references of each kind in
  each window.  Every window cut out of the image, of the relocation table and of a list of
  locations lies inside it, every location and every offset of a block has 32 bits, the
  displacement of every branch that is judged is there, and no search, scan or walk takes more
  steps than the number of bytes, and one.
* The lookups of offsets and RVAs.
* The room for data directories behind the fixed part of an optional header. -/
theorem extraction_eq_ok (h : Image.parse width options data = .ok image) :
  relocTable image = .ok image.relocTable
    ∧ branchLocations image = .ok image.branchLocations
    ∧ (∀ kind low high, references image kind low high = .ok (image.references kind low high))
    ∧ (∀ offset, offsetToRva image.loadMap offset = .ok (image.loadMap.offsetToRva? offset))
    ∧ (∀ rva, rvaToOffset image.loadMap rva = .ok (image.loadMap.rvaToOffset? rva))
    ∧ ∀ offset size optional, OptionalHeader.read data offset size = .ok optional →
      difference size optional.width.fixedSize = .ok (size - optional.width.fixedSize)
  := by
  have small := (Image.wellFormed_of_parse h).size_lt
  have bounded := bounded_of_parse h
  use relocTable_eq_ok small bounded, branchLocations_eq_ok small bounded,
    references_eq_ok small bounded, offsetToRva_eq_ok bounded, rvaToOffset_eq_ok bounded
  intro offset size optional hread
  apply difference_eq_ok (OptionalHeader.fields_of_read hread).2.1

/-- In the sample the base relocation table is walked through to its end, and the instruction
that the last bytes cut off is not recognised. -/
theorem extraction_eq_ok_sample :
  branchLocations .sample = .ok [0x139, 0x144]
    ∧ (∃ table, relocTable .sample = .ok table ∧ table.locations = [0x13E, 0x148])
    ∧ difference 0x90 (Width.bits32.fixedSize) = .ok 0x30
  := by
  obtain ⟨relocs, branches, -, -, -, header⟩ := extraction_eq_ok Image.parse_sampleBytes
  have found : Image.sample.branchLocations = [0x139, 0x144] := Image.locations_rel32_sample
  and_intros
  · rw [branches, found]
  · use Image.sample.relocTable, relocs
    apply Image.locations_reloc_sample
  · apply header 0x58 0x90 ⟨.bits32, 0, 0x400000, 0, 0, 0x3000, 0, 6⟩
    decide +kernel

end ImageRefs.Checked
