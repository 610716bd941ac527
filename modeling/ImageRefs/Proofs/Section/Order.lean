import ImageRefs.Branch.Table
import ImageRefs.Proofs.Address.Lookup
import ImageRefs.Proofs.Image.Parsed
import ImageRefs.Proofs.Reference.Location
import Mathlib.Data.List.Basic

/-!
# The order of sections

The first mapping that covers what is asked for answers a lookup, and the sections are scanned
one after the other, each with its own condition on conditional branches.  If the sections share
neither RVAs nor bytes of the file, their order does not show in anything that is asked about
the image (`Image.answers_eq_of_perm`):

* the bound of the layout is a maximum (`Layout.boundOf_eq_of_perm`);
* the load map answers alike (`LoadMap.alike_of_sections`);
* so each block, each entry and each branch is judged alike, and the branches are put in order
  whatever section they come from (`Image.Reordered`).
-/

namespace ImageRefs

namespace Section

/-- The RVAs at which the section is loaded. -/
def rvas (s : Section) : Region :=
  ⟨s.virtualAddress, s.virtualSize⟩

/-- The offsets of the bytes of the section in the file, be they loaded or not. -/
def rawBytes (s : Section) : Region :=
  ⟨s.rawOffset, s.rawSize⟩

/-- Sections that share no bytes of the file load no byte twice. -/
theorem disjoint_offsets_mapping {s t : Section} (h : s.rawBytes.Disjoint t.rawBytes) :
  s.mapping.offsets.Disjoint t.mapping.offsets
  := by
  have hs : s.mapping.shared ≤ s.rawSize := s.mapping.shared_le_offsetSize
  have ht : t.mapping.shared ≤ t.rawSize := t.mapping.shared_le_offsetSize
  intro i both
  simp only [Region.Holds, Mapping.offsets, mapping] at both hs ht
  apply h i
  simp only [Region.Holds, rawBytes]
  omega

end Section

/-- The bound of a layout does not depend on the order of the sections. -/
theorem Layout.boundOf_eq_of_perm {sections sections' : List Section}
    (perm : sections.Perm sections') :
  boundOf sections = boundOf sections'
  := by
  apply Nat.le_antisymm
  · apply boundOf_le
    intro s hs
    apply rawEnd_le_boundOf (perm.subset hs)
  · apply boundOf_le
    intro s hs
    apply rawEnd_le_boundOf (perm.symm.subset hs)

/-- The load maps of sections in either order answer alike, if no two sections share RVAs or
bytes of the file. -/
theorem LoadMap.alike_of_sections {sections sections' : List Section}
    (perm : sections.Perm sections')
    (rvas : sections.Pairwise fun s t => s.rvas.Disjoint t.rvas)
    (rawBytes : sections.Pairwise fun s t => s.rawBytes.Disjoint t.rawBytes) :
  Alike ⟨sections.map Section.mapping⟩ ⟨sections'.map Section.mapping⟩
  := by
  apply alike_of_perm
  · apply perm.map
  · apply rvas.map
    intro s t h
    apply h
  · apply rawBytes.map
    intro s t
    apply Section.disjoint_offsets_mapping

namespace Image

/-- Two images that differ only in the order of their sections and in their load maps, which
answer alike. -/
structure Reordered (a b : Image) : Prop where
  width : a.width = b.width
  options : a.options = b.options
  bytes : a.bytes = b.bytes
  imageBase : a.imageBase = b.imageBase
  relocationDirectory : a.relocationDirectory = b.relocationDirectory
  sections : a.sections.Perm b.sections
  alike : a.loadMap.Alike b.loadMap

namespace Reordered

variable {a b : Image}

/-! ### Base relocations -/

theorem relocLocation?_eq (h : Reordered a b) :
  a.relocLocation? = b.relocLocation?
  := by
  have holds : a.holdsField = b.holdsField := by
    funext width location
    rw [holdsField, holdsField, h.bytes]
  funext block entry
  rw [relocLocation?, relocLocation?, h.width, h.alike.rvaToOffset?, holds]

theorem relocWalk_eq (h : Reordered a b) :
  a.relocWalk = b.relocWalk
  := by
  rw [relocWalk, relocWalk, h.relocationDirectory, h.alike.rvaToOffset?, h.bytes]

theorem relocTable_eq (h : Reordered a b) :
  a.relocTable = b.relocTable
  := by
  simp only [relocTable, patchedLocations, h.relocWalk_eq, h.relocLocation?_eq]

/-! ### Branches -/

theorem relativeTarget?_eq (h : Reordered a b) :
  a.addressSpace.relativeTarget? = b.addressSpace.relativeTarget?
  := by
  funext location displacement
  have rva : a.addressSpace.loadMap.offsetToRva? location
      = b.addressSpace.loadMap.offsetToRva? location := congrFun h.alike.offsetToRva? location
  rw [AddressSpace.relativeTarget?, AddressSpace.relativeTarget?, rva]

theorem storedTarget?_eq (h : Reordered a b) (data : Bytes) (location : Nat) :
  a.addressSpace.storedTarget? data location = b.addressSpace.storedTarget? data location
  := by
  rw [AddressSpace.storedTarget?, AddressSpace.storedTarget?, h.relativeTarget?_eq]

theorem sectionBranches_eq (h : Reordered a b) (avoided : List Nat) :
  a.sectionBranches avoided = b.sectionBranches avoided
  := by
  have accepts : a.accepts = b.accepts := by
    funext s c
    rw [accepts, accepts, h.storedTarget?_eq, h.bytes, h.options, h.alike.validRva]
  have finder : a.finder = b.finder := by
    rw [Image.finder, Image.finder, h.width, h.options]
  funext s
  rw [sectionBranches, sectionBranches, h.width]
  congr 1
  funext region
  rw [branchesIn, branchesIn, accepts, finder, h.bytes]

/-- The branches are found section by section, but sorted by where they are. -/
theorem branchesAround_eq (h : Reordered a b) (avoided : List Nat) :
  a.branchesAround avoided = b.branchesAround avoided
  := by
  apply Locations.spaced_eq_of_perm
  rw [h.sectionBranches_eq]
  apply List.Perm.flatMap_right
  apply h.sections.filter

theorem locations_eq (h : Reordered a b) (kind : ReferenceKind) :
  a.locations kind = b.locations kind
  := by
  cases kind with
  | reloc => rw [locations, locations, h.relocTable_eq]
  | rel32 =>
    rw [locations, locations, branchLocations, branchLocations, h.branchesAround_eq,
      avoidedLocations, avoidedLocations, h.options, h.relocTable_eq]

/-! ### References -/

theorem read?_eq (h : Reordered a b) (kind : ReferenceKind) (data : Bytes) (location : Nat) :
  a.addressSpace.read? kind data location = b.addressSpace.read? kind data location
  := by
  have width : a.addressSpace.width = b.addressSpace.width := h.width
  have base : a.addressSpace.base = b.addressSpace.base := by
    simp only [addressSpace, AddressSpace.ofBase, h.width, h.imageBase]
  have validRva : a.addressSpace.loadMap.validRva = b.addressSpace.loadMap.validRva :=
    h.alike.validRva
  cases kind with
  | reloc =>
    simp only [AddressSpace.read?, AddressSpace.readReloc?, AddressSpace.validRva?,
      AddressSpace.addressToRva?, width, base, validRva]
  | rel32 =>
    simp only [AddressSpace.read?, AddressSpace.readRel32?, AddressSpace.rvaToAddress,
      h.storedTarget?_eq, width, base, validRva]

theorem references_eq (h : Reordered a b) (kind : ReferenceKind) (low high : Nat) :
  a.references kind low high = b.references kind low high
  := by
  rw [references, references, AddressSpace.readAll, AddressSpace.readAll, h.bytes,
    h.locations_eq]
  apply List.filterMap_congr
  intro location _
  apply h.read?_eq

end Reordered

/-- The image with other sections and another load map. -/
def withSections (image : Image) (sections : List Section) (loadMap : LoadMap) : Image :=
  { image with sections := sections, loadMap := loadMap }

/-- The order of sections does not matter, if no two of them share RVAs and no two share bytes
of the file.  Let two lists of the same sections have layouts and load maps.  The layouts have
the same bound, and the load maps give the same answers.  An image with the one list has the same
base relocation table, the same fields and the same references in each window as with the
other. -/
theorem answers_eq_of_perm (image : Image) {sections sections' : List Section}
    {imageSize sizeOfImage : Nat} {layout layout' : Layout} {l l' : LoadMap}
    (perm : sections.Perm sections')
    (accepted : Layout.ofSections sections imageSize sizeOfImage = .ok layout)
    (accepted' : Layout.ofSections sections' imageSize sizeOfImage = .ok layout')
    (loadMap : LoadMap.ofMappings layout.mappings = .ok l)
    (loadMap' : LoadMap.ofMappings layout'.mappings = .ok l')
    (rvas : sections.Pairwise fun s t => s.rvas.Disjoint t.rvas)
    (rawBytes : sections.Pairwise fun s t => s.rawBytes.Disjoint t.rawBytes) :
  layout.bound = layout'.bound
    ∧ (∀ offset, l.offsetToRva? offset = l'.offsetToRva? offset)
    ∧ (∀ rva, l.rvaToOffset? rva = l'.rvaToOffset? rva)
    ∧ (∀ rva, l.validRva rva = l'.validRva rva)
    ∧ (∀ offset, l.validOffset offset = l'.validOffset offset)
    ∧ (image.withSections sections l).relocTable = (image.withSections sections' l').relocTable
    ∧ (∀ kind, (image.withSections sections l).locations kind
      = (image.withSections sections' l').locations kind)
    ∧ ∀ kind low high, (image.withSections sections l).references kind low high
      = (image.withSections sections' l').references kind low high
  := by
  obtain ⟨-, rfl⟩ := Layout.ofSections_eq_ok_iff.mp accepted
  obtain ⟨-, rfl⟩ := Layout.ofSections_eq_ok_iff.mp accepted'
  obtain ⟨-, rfl⟩ := LoadMap.ofMappings_eq_ok_iff.mp loadMap
  obtain ⟨-, rfl⟩ := LoadMap.ofMappings_eq_ok_iff.mp loadMap'
  have alike := LoadMap.alike_of_sections perm rvas rawBytes
  have reordered : Reordered
      (image.withSections sections ⟨sections.map Section.mapping⟩)
      (image.withSections sections' ⟨sections'.map Section.mapping⟩) :=
    ⟨rfl, rfl, rfl, rfl, rfl, perm, alike⟩
  and_intros
  · apply Layout.boundOf_eq_of_perm perm
  · apply congrFun alike.offsetToRva?
  · apply congrFun alike.rvaToOffset?
  · apply congrFun alike.validRva
  · apply congrFun alike.validOffset
  · apply reordered.relocTable_eq
  · apply reordered.locations_eq
  · apply reordered.references_eq

/-- Two sections that share nothing: the one has the bytes of `sampleCode` up to the end of the
base relocation table, and the other the rest. -/
def disjointSections : List Section := [
  ⟨[0x2E, 0x74, 0x65, 0x78, 0x74, 0, 0, 0], 0x24, 0x1000, 0x24, 0x138, 0x20000020⟩,
  ⟨[0x2E, 0x68, 0x6F, 0x74, 0, 0, 0, 0], 0x40, 0x2000, 0x04, 0x15C, 0x20000020⟩]

/-- With these two sections in either order the RVA of the base relocation table is found at the
same offset, and the references are the same. -/
theorem answers_eq_of_perm_sample :
  (∀ sections ∈ [disjointSections, disjointSections.reverse],
      LoadMap.rvaToOffset? ⟨sections.map Section.mapping⟩ 0x1014 = some 0x14C)
    ∧ ∀ kind low high,
      (sample.withSections disjointSections
          ⟨disjointSections.map Section.mapping⟩).references kind low high
        = (sample.withSections disjointSections.reverse
          ⟨disjointSections.reverse.map Section.mapping⟩).references kind low high
  := by
  have perm : disjointSections.Perm disjointSections.reverse := by decide
  have accepted : Layout.ofSections disjointSections 0x160 0x3000
      = .ok ⟨disjointSections.map Section.mapping, 0x160⟩ := rfl
  have accepted' : Layout.ofSections disjointSections.reverse 0x160 0x3000
      = .ok ⟨disjointSections.reverse.map Section.mapping, 0x160⟩ := rfl
  obtain ⟨-, -, lookup, -, -, -, -, references⟩ :=
    answers_eq_of_perm sample perm accepted accepted' rfl rfl (by decide) (by decide)
  have found : LoadMap.rvaToOffset? ⟨disjointSections.map Section.mapping⟩ 0x1014
      = some 0x14C := by decide
  constructor
  · intro sections hsections
    rcases List.mem_pair.mp hsections with rfl | rfl
    · apply found
    · rw [← lookup, found]
  · apply references

end Image

end ImageRefs
