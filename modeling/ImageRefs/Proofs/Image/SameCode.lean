import ImageRefs.Proofs.Image.Overlay
import ImageRefs.Proofs.Reference.Apart
import ImageRefs.Proofs.Reference.Read

/-!
# Images with the same code

The branches of an image depend on the bytes of its code sections that are scanned, and on which
of these lie in absolute fields.  Neither the bytes outside of the code nor the base relocation
table matter beyond that (`Image.references_rel32_congr`):

* whether an instruction meets absolute fields is a question about its bytes, not about the
  fields one by one (`Image.spares_iff`);
* the target of a branch is read from its own bytes (`Image.SameCode.hasTarget_iff`);
* so the plain scan of each code section finds the same branches
  (`Image.SameCode.plainBranches_eq`).
-/

namespace ImageRefs

/-- An instruction meets none of the fields exactly if none of its bytes lies in one. -/
theorem Candidate.avoids_iff {width : Nat} {locations : List Nat} {c : Candidate}
    (positive : 0 < width) (long : c.start < c.stop) :
  c.Avoids width locations
    ↔ ∀ i, c.start ≤ i → i < c.stop → ¬ ∃ l ∈ locations, Region.Holds ⟨l, width⟩ i
  := by
  constructor
  · rintro avoids i low high ⟨l, hl, holds⟩
    have := avoids l hl
    simp only [Region.Holds] at holds
    omega
  · intro outside l hl
    by_contra meets
    apply outside (max c.start l) (by omega) (by omega)
    use l, hl
    simp only [Region.Holds]
    omega

namespace Image

variable {a b image : Image} {s : Section} {c : Candidate}

/-- The byte at an offset lies in an absolute field of the image. -/
def Relocated (image : Image) (i : Nat) : Prop :=
  ∃ l ∈ image.locations .reloc, Region.Holds ⟨l, image.width.bytes⟩ i

/-- An instruction spares the absolute fields exactly if none of its bytes lies in one, if these
are to be left out. -/
theorem spares_iff (long : c.start < c.stop) :
  image.Spares c
    ↔ (image.options.branches.avoidRelocations = true →
      ∀ i, c.start ≤ i → i < c.stop → ¬ image.Relocated i)
  := by
  have positive : 0 < image.width.bytes := by cases image.width <;> decide
  apply imp_congr_right
  intro _
  apply Candidate.avoids_iff positive long

/-- Two images have the same code: they have the same sections at the same base, the same bytes
where code is scanned, and of these bytes the same ones lie in absolute fields, if absolute
fields are to be left out. -/
structure SameCode (a b : Image) : Prop where
  width : a.width = b.width
  options : a.options = b.options
  sections : a.sections = b.sections
  imageBase : a.imageBase = b.imageBase
  loadMap : a.loadMap = b.loadMap
  bytes : ∀ s ∈ a.codeSections, ∀ i, s.scanRegion.Holds i → a.bytes[i]? = b.bytes[i]?
  relocated : a.options.branches.avoidRelocations = true →
    ∀ s ∈ a.codeSections, ∀ i, s.scanRegion.Holds i → (a.Relocated i ↔ b.Relocated i)

/-- A well-formed image holds the bytes of a section that are scanned. -/
theorem WellFormed.scanned_le (wf : image.WellFormed) (hs : s ∈ image.codeSections) :
  s.scanRegion.offset + s.scanRegion.size ≤ image.bytes.size
  := by
  have := wf.rawEnd_le s (List.mem_filter.mp hs).1
  simp only [Section.rawEnd, Section.scanRegion] at this ⊢
  omega

namespace SameCode

theorem codeSections_eq (h : SameCode a b) :
  a.codeSections = b.codeSections
  := by
  rw [codeSections, codeSections, h.sections]

theorem addressSpace_eq (h : SameCode a b) :
  a.addressSpace = b.addressSpace
  := by
  rw [addressSpace, addressSpace, h.width, h.loadMap, h.imageBase]

theorem finder_eq (h : SameCode a b) :
  a.finder = b.finder
  := by
  rw [finder, finder, h.width, h.options]

/-- Whether an instruction among the bytes that are scanned spares the absolute fields is the
same. -/
theorem spares_iff (h : SameCode a b) (hs : s ∈ a.codeSections)
    (low : s.scanRegion.offset ≤ c.start) (long : c.start < c.stop)
    (high : c.stop ≤ s.scanRegion.offset + s.scanRegion.size) :
  a.Spares c ↔ b.Spares c
  := by
  rw [Image.spares_iff long, Image.spares_iff long, h.options]
  apply imp_congr_right
  intro avoid
  apply forall_congr'
  intro i
  apply imp_congr_right
  intro behind
  apply imp_congr_right
  intro before
  apply not_congr
  apply h.relocated (h.options ▸ avoid) s hs i
  simp only [Region.Holds]
  omega

section Scan

variable (h : SameCode a b) (wfa : a.WellFormed) (wfb : b.WellFormed)
  (hs : s ∈ a.codeSections)
include h wfa wfb hs

/-- The bytes that are scanned in a section are the same. -/
theorem span_eq :
  a.bytes.span s.scanRegion.offset (s.scanRegion.offset + s.scanRegion.size)
    = b.bytes.span s.scanRegion.offset (s.scanRegion.offset + s.scanRegion.size)
  := by
  apply Bytes.span_congr (wfa.scanned_le hs) (wfb.scanned_le (h.codeSections_eq ▸ hs))
  intro i low high
  apply h.bytes s hs i ⟨low, high⟩

/-- The same number is stored in a field among the bytes that are scanned. -/
theorem read?_eq {width location : Nat} (low : s.scanRegion.offset ≤ location)
    (high : location + width ≤ s.scanRegion.offset + s.scanRegion.size) :
  a.bytes.read? width location = b.bytes.read? width location
  := by
  have ha := wfa.scanned_le hs
  have hb := wfb.scanned_le (h.codeSections_eq ▸ hs)
  apply Bytes.read?_congr (iff_of_true (by omega) (by omega))
  intro i behind before
  apply h.bytes s hs i
  simp only [Region.Holds]
  omega

/-- The target of an instruction among the bytes that are scanned is the same. -/
theorem hasTarget_iff (low : s.scanRegion.offset ≤ c.location)
    (high : c.location + displacementWidth ≤ s.scanRegion.offset + s.scanRegion.size) :
  a.HasTarget s c ↔ b.HasTarget s c
  := by
  rw [HasTarget, HasTarget, h.read?_eq wfa wfb hs low high, h.loadMap, h.options]

/-- The plain scan of a code section finds the same branches. -/
theorem plainBranches_eq :
  a.plainBranches s = b.plainBranches s
  := by
  have inside := wfa.scanned_le hs
  have bytes := h.span_eq wfa wfb hs
  simp only [Section.scanRegion] at inside bytes
  rw [plainBranches, plainBranches, h.finder_eq, bytes]
  apply Finder.walk_congr
  intro c low early long high
  have size : (b.bytes.span s.rawOffset (s.rawOffset + min s.virtualSize s.rawSize)).length
      = min s.virtualSize s.rawSize := by
    rw [← bytes, Bytes.length_span]
    omega
  rw [size] at high
  apply decide_eq_decide.mpr
  apply and_congr
  · apply h.spares_iff hs low (by omega) high
  · apply h.hasTarget_iff wfa wfb hs _ (long ▸ high)
    apply Nat.le_trans low (Nat.le_of_lt early)

end Scan

/-- The same branches are found. -/
theorem branchLocations_eq (h : SameCode a b) (wfa : a.WellFormed) (wfb : b.WellFormed) :
  a.branchLocations = b.branchLocations
  := by
  have found : ∀ s ∈ a.codeSections,
      (a.sectionBranches a.avoidedLocations s).map (·.location)
        = (b.sectionBranches b.avoidedLocations s).map (·.location) := by
    intro s hs
    have inA := (List.mem_filter.mp hs).1
    rw [sectionBranches_eq wfa inA, sectionBranches_eq wfb (h.sections ▸ inA),
      h.plainBranches_eq wfa wfb hs]
  rw [branchLocations, branchLocations, branchesAround, branchesAround,
    List.flatMap_congr found, h.codeSections_eq]

/-- The same references are read from the displacements of the branches. -/
theorem references_eq (h : SameCode a b) (wfa : a.WellFormed) (wfb : b.WellFormed)
    (low high : Nat) :
  a.references .rel32 low high = b.references .rel32 low high
  := by
  have same : a.locations .rel32 = b.locations .rel32 := h.branchLocations_eq wfa wfb
  rw [references, references, AddressSpace.readAll, AddressSpace.readAll, ← same,
    ← h.addressSpace_eq]
  apply List.filterMap_congr
  intro l hl
  obtain ⟨s, hs, c, hc, rfl⟩ :=
    exists_of_mem_rel32 wfa ((Locations.within_sublist _ _ _).subset hl)
  obtain ⟨early, long, -⟩ := of_mem_plainBranches hc
  obtain ⟨low', high'⟩ := inside_of_mem_plainBranches hc
  rw [AddressSpace.read?_eq_bind, AddressSpace.read?_eq_bind, ReferenceKind.fieldWidth,
    h.read?_eq wfa wfb hs (Nat.le_trans low' (Nat.le_of_lt early)) (long ▸ high')]

end SameCode

/-- The bytes that an image keeps are those of its file. -/
theorem getElem?_bytes_of_parse {width : Width} {options : Options} {data : Bytes}
    (h : parse width options data = .ok image) {i : Nat} (inside : i < image.bytes.size) :
  image.bytes[i]? = data[i]?
  := by
  have bytes := (bytes_of_parse h).1
  rw [bytes, Array.size_extract] at inside
  rw [bytes, Array.getElem?_extract, if_pos inside, Nat.zero_add]

/-- The branches of a parsed image depend on its code only.  Let two files hold images with the
same sections at the same base, and let them have the same bytes wherever code is scanned.  If
absolute fields are to be left out, let those of either image cover the same of these bytes, be
it by the same fields or by others.  Then relative fields are at the same locations, and every
window has the same relative references, whatever else differs. -/
theorem references_rel32_congr {width : Width} {options : Options} {data data' : Bytes}
    (ha : parse width options data = .ok a) (hb : parse width options data' = .ok b)
    (sections : a.sections = b.sections) (imageBase : a.imageBase = b.imageBase)
    (bytes : ∀ s ∈ a.codeSections, ∀ i, s.scanRegion.Holds i → data[i]? = data'[i]?)
    (relocated : options.branches.avoidRelocations = true →
      ∀ s ∈ a.codeSections, ∀ i, s.scanRegion.Holds i → (a.Relocated i ↔ b.Relocated i)) :
  a.locations .rel32 = b.locations .rel32
    ∧ ∀ low high, a.references .rel32 low high = b.references .rel32 low high
  := by
  have wfa := wellFormed_of_parse ha
  have wfb := wellFormed_of_parse hb
  have same : SameCode a b := by
    constructor
    · rw [width_of_parse ha, width_of_parse hb]
    · rw [options_of_parse ha, options_of_parse hb]
    · apply sections
    · apply imageBase
    · rw [loadMap_of_parse ha, loadMap_of_parse hb, sections]
    · intro s hs i inside
      have inA := wfa.scanned_le hs
      have inB := wfb.scanned_le
        (show s ∈ b.codeSections by rwa [codeSections, ← sections])
      rw [getElem?_bytes_of_parse ha (Nat.lt_of_lt_of_le inside.2 inA),
        getElem?_bytes_of_parse hb (Nat.lt_of_lt_of_le inside.2 inB), bytes s hs i inside]
    · rwa [options_of_parse ha]
  use same.branchLocations_eq wfa wfb, same.references_eq wfa wfb

/-! ### Two images with the same code -/

/-- A section with code, and one with a base relocation table, which is not scanned. -/
def tableSections : List Section := [
  ⟨[0x2E, 0x74, 0x65, 0x78, 0x74, 0, 0, 0], 0x14, 0x1000, 0x14, 0x138, 0x20000020⟩,
  ⟨[0x2E, 0x72, 0x65, 0x6C, 0x6F, 0x63, 0, 0], 0x40, 0x2000, 0x14, 0x14C, 0x42000040⟩]

/-- The bytes before the base relocation table: the headers of `sampleBytes` with another
directory and other sections, then a call, eight bytes with a jump at the offset `0x142`, and a
conditional branch. -/
def tableFront : List UInt8 :=
  sampleBytes.toList.take 0xE0 ++ toLE 4 0x2000 ++ toLE 4 0x14
    ++ tableSections.flatMap sampleHeader
    ++ [0xE8, 0, 0, 0, 0, 0x90] ++ toLE 4 0x401000 ++ [0xE9, 0, 0, 0] ++ [0x0F, 0x84]
    ++ toLE 4 0xFFFFFFFA

/-- The bytes of an image with a given base relocation table. -/
def tableBytes (table : List UInt8) : Bytes :=
  (tableFront ++ table).toArray

/-- The image that these bytes hold. -/
def tableImage (table : List UInt8) : Image where
  width := .bits32
  options := {}
  bytes := tableBytes table
  sections := tableSections
  imageBase := 0x400000
  relocationDirectory := some ⟨0x2000, 0x14⟩
  loadMap := ⟨tableSections.map Section.mapping⟩

/-- A table that patches two fields, one behind the other. -/
def wholeTable : List UInt8 :=
  toLE 4 0x1000 ++ toLE 4 0x14 ++ toLE 2 0x3006 ++ toLE 2 0x300A ++ toLE 8 0

/-- A malformed table that patches the same bytes by three fields, one of which overlaps the
two others. -/
def brokenTable : List UInt8 :=
  toLE 4 0x1000 ++ toLE 4 0x0E ++ toLE 2 0x300A ++ toLE 2 0x3008 ++ toLE 2 0x3006 ++ toLE 6 0

theorem length_tableFront :
  tableFront.length = 0x14C
  := by
  decide +kernel

theorem getElem?_tableBytes {i : Nat} (inside : i < 0x14C) (table : List UInt8) :
  (tableBytes table)[i]? = tableFront[i]?
  := by
  rw [tableBytes, List.getElem?_toArray, List.getElem?_append_left]
  rwa [length_tableFront]

theorem size_tableBytes {table : List UInt8} (length : table.length = 0x14) :
  (tableBytes table).size = 0x160
  := by
  rw [tableBytes, List.size_toArray, List.length_append, length_tableFront, length]

theorem parse_wholeTable :
  parse .bits32 {} (tableBytes wholeTable) = .ok (tableImage wholeTable)
  := by
  apply parse_eq_ok_iff.mpr
  constructor
  · decide +kernel
  · use ⟨dosSignature, 0x40⟩, ⟨⟨.i386, 2, 0, 0x90, 0⟩,
      ⟨.bits32, 0, 0x400000, 0, 0, 0x3000, 0, 6⟩,
      [⟨0, 0⟩, ⟨0, 0⟩, ⟨0, 0⟩, ⟨0, 0⟩, ⟨0, 0⟩, ⟨0x2000, 0x14⟩], 0xE8⟩,
      tableSections, ⟨tableSections.map Section.mapping, 0x160⟩,
      ⟨tableSections.map Section.mapping⟩
    and_intros
    · decide +kernel
    · decide +kernel
    · rfl
    · decide +kernel
    · decide +kernel
    · decide +kernel
    · rw [Array.extract_eq_self_of_le (by decide +kernel)]
      rfl

/-- The table lies behind the headers, so that any other one can stand there. -/
theorem parse_tableBytes {table : List UInt8} (length : table.length = 0x14) :
  parse .bits32 {} (tableBytes table) = .ok (tableImage table)
  := by
  have headersEnd : (tableBytes wholeTable).headersEnd = 0x138 := by decide +kernel
  have whole : (tableBytes wholeTable).size = 0x160 := size_tableBytes rfl
  have size : (tableBytes table).size = 0x160 := size_tableBytes length
  have agree : Bytes.AgreeBelow (tableBytes wholeTable).headersEnd (tableBytes wholeTable)
      (tableBytes table) := by
    constructor
    · omega
    · omega
    · intro i inside
      rw [getElem?_tableBytes (by omega), getElem?_tableBytes (by omega)]
  rw [parse_of_agreeBelow_headersEnd parse_wholeTable agree]
  · rw [Image.size, Array.extract_eq_self_of_le]
    · rfl
    · change (tableBytes table).size ≤ (tableBytes wholeTable).size
      omega
  · change (tableBytes wholeTable).size ≤ (tableBytes table).size
    omega
  · rw [size]
    decide

/-- The absolute fields of the image with either table. -/
theorem locations_reloc_tables :
  (tableImage wholeTable).locations .reloc = [0x13E, 0x142]
    ∧ (tableImage brokenTable).locations .reloc = [0x13E, 0x140, 0x142]
  := by
  have whole : ((tableImage wholeTable).patchedLocations
      (tableImage wholeTable).relocWalk.blocks).Perm [0x13E, 0x142] := by
    decide +kernel
  have broken : ((tableImage brokenTable).patchedLocations
      (tableImage brokenTable).relocWalk.blocks).Perm [0x13E, 0x140, 0x142] := by
    decide +kernel
  constructor
  · apply locations_reloc_of_perm whole (by decide)
  · apply locations_reloc_of_perm broken (by decide)

/-- The malformed table leaves the same branches to be found as the other one.  The jump at the
offset `0x142` is not among them, because it lies in absolute fields of both. -/
theorem references_rel32_congr_tables :
  (tableImage wholeTable).relocTable.complete = true
    ∧ (tableImage brokenTable).relocTable.complete = false
    ∧ (tableImage wholeTable).locations .rel32 = [0x139, 0x148]
    ∧ (tableImage brokenTable).locations .rel32 = [0x139, 0x148]
  := by
  obtain ⟨whole, broken⟩ := locations_reloc_tables
  have found : ((tableImage wholeTable).codeSections.flatMap fun s =>
      ((tableImage wholeTable).sectionBranches [0x13E, 0x142] s).map (·.location)).Perm
        [0x139, 0x148] := by
    decide +kernel
  have avoided : (tableImage wholeTable).avoidedLocations = [0x13E, 0x142] := whole
  have here : (tableImage wholeTable).locations .rel32 = [0x139, 0x148] :=
    locations_rel32_of_perm avoided found (by decide)
  have scanned : ∀ s ∈ (tableImage wholeTable).codeSections, ∀ i, s.scanRegion.Holds i →
      i < 0x14C := by
    have code : (tableImage wholeTable).codeSections = tableSections.take 1 := by decide
    rw [code]
    intro s hs i inside
    obtain rfl := List.mem_singleton.mp hs
    apply inside.2
  have parsed : parse .bits32 {} (tableBytes brokenTable) = .ok (tableImage brokenTable) :=
    parse_tableBytes rfl
  have same := references_rel32_congr parse_wholeTable parsed rfl rfl
  constructor
  · decide +kernel
  constructor
  · decide +kernel
  use here
  rw [← (same _ _).1, here]
  · intro s hs i inside
    rw [getElem?_tableBytes (scanned s hs i inside), getElem?_tableBytes (scanned s hs i inside)]
  · intro _ s _ i _
    have width (table : List UInt8) : (tableImage table).width.bytes = 4 := rfl
    rw [Relocated, Relocated, whole, broken, width, width]
    simp only [List.mem_cons, List.not_mem_nil, or_false, Region.Holds, exists_eq_or_imp,
      exists_eq_left]
    omega

end Image

end ImageRefs
