import ImageRefs.Proofs.Image.Overlay
import ImageRefs.Proofs.Reference.Apart

/-!
# Conditional branches and their sections

If conditional branches are to stay in their section, a scan accepts one if its target lies in
the section that is scanned.  Where the branch itself is loaded, and hence where its target lies,
is decided by the load map: the first section that loads the field counts.

* The branch is found in a section that has its instruction among the bytes to be scanned and
  its target among its RVAs, and stays in that section if the load map loads the field where the
  section does (`Image.exists_section_of_conditional`).
* Of two sections that share bytes of the file one may be scanned and the other decide where the
  field is loaded.  Then the branch leaves the one for the other
  (`Image.conditional_leaves_section`).
-/

namespace ImageRefs

namespace Section

variable {s : Section} {offset : Nat}

/-- The RVA at which the section loads the byte at an offset. -/
def rvaOf (s : Section) (offset : Nat) : Nat :=
  s.virtualAddress + (offset - s.rawOffset)

/-- A section loads the bytes that are scanned if it holds code. -/
theorem coversOffset_mapping_iff :
  s.mapping.coversOffset offset = true ↔ s.scanRegion.Holds offset
  := by
  rw [Mapping.coversOffset_iff]
  simp only [mapping, Mapping.shared, scanRegion, Region.Holds, Nat.min_comm]

/-- A section loads its bytes at its own RVAs. -/
theorem containsRva_rvaOf (h : s.scanRegion.Holds offset) :
  s.containsRva (s.rvaOf offset) = true
  := by
  simp only [scanRegion, Region.Holds] at h
  rw [← s.coversRva_mapping, Mapping.coversRva_iff]
  simp only [mapping, rvaOf]
  omega

end Section

namespace Image

variable {image : Image} {s : Section}

/-- The relative field at an offset is loaded at one RVA and points to another. -/
def Leads (image : Image) (location fieldRva targetRva : Nat) : Prop :=
  image.loadMap.offsetToRva? location = some fieldRva
    ∧ ∃ word, image.bytes.read? displacementWidth location = some word
      ∧ (targetRva : Int) = fieldRva + displacementWidth + signed32 word

/-- The first section that loads a byte decides at which RVA it is found. -/
theorem offsetToRva?_eq_map
    (mapped : image.loadMap = ⟨image.sections.map Section.mapping⟩) (offset : Nat) :
  image.loadMap.offsetToRva? offset
    = (image.sections.find? (·.mapping.coversOffset offset)).map (·.rvaOf offset)
  := by
  rw [mapped, LoadMap.offsetToRva?, List.find?_map, Option.map_map]
  rfl

/-- What the plain scan finds in front of a displacement is a conditional branch if the bytes
there are those of one, and it begins with them. -/
theorem conditional_of_mem_plainBranches {c : Candidate} (h : c ∈ image.plainBranches s)
    {byte : UInt8} (last : image.bytes[c.location - 1]? = some byte)
    (conditional : BranchForm.isCondition byte = true) :
  c.mayLeaveSection = false ∧ c.location = c.start + 2
  := by
  obtain ⟨m, found, here⟩ := Finder.match?_of_mem_walk h
  obtain ⟨low, -⟩ := inside_of_mem_plainBranches h
  obtain ⟨positive, long, fits⟩ := Finder.of_match? found
  simp only [Section.scanRegion] at low
  rw [Bytes.drop_span, Nat.add_sub_cancel' low] at found fits
  rw [Bytes.length_span] at fits
  have location : c.location = c.start + m.displacementOffset := by
    rw [here]
    rfl
  have inside : c.start + (m.displacementOffset - 1)
      < s.rawOffset + min s.virtualSize s.rawSize := by omega
  rw [show c.location - 1 = c.start + (m.displacementOffset - 1) by omega,
    ← Bytes.getElem?_span image.bytes inside] at last
  obtain ⟨stays, two⟩ := Finder.conditional_of_match? found last conditional
  rw [location, two, here]
  use stays

/-- A conditional branch with a relative field of a parsed image, if conditional branches are to
stay in their section: its instruction lies among the bytes that are scanned in some code
section, and its target lies in that section.  The field is loaded in the first section that
loads it.  If that is the same section, or loads the field at the same RVA, the branch does not
leave the section. -/
theorem exists_section_of_conditional {width : Width} {options : Options} {data : Bytes}
    (h : parse width options data = .ok image)
    (stay : options.branches.stayInSection = true) {start : Nat} {second : UInt8}
    (found : start + 2 ∈ image.locations .rel32)
    (opcode : image.bytes[start]? = some 0x0F ∧ image.bytes[start + 1]? = some second)
    (conditional : BranchForm.isCondition second = true) :
  ∃ s ∈ image.codeSections, ∃ t fieldRva targetRva,
    s.scanRegion.offset ≤ start
      ∧ start + 2 + displacementWidth ≤ s.scanRegion.offset + s.scanRegion.size
      ∧ image.Leads (start + 2) fieldRva targetRva
      ∧ s.containsRva targetRva = true
      ∧ image.sections.find? (·.mapping.coversOffset (start + 2)) = some t
      ∧ fieldRva = t.rvaOf (start + 2)
      ∧ t.containsRva fieldRva = true
      ∧ (t.rvaOf (start + 2) = s.rvaOf (start + 2) → s.containsRva fieldRva = true)
  := by
  obtain ⟨s, hs, c, hc, here⟩ := exists_of_mem_rel32 (wellFormed_of_parse h) found
  obtain ⟨low, high⟩ := inside_of_mem_plainBranches hc
  obtain ⟨early, long, -⟩ := of_mem_plainBranches hc
  obtain ⟨stays, two⟩ := conditional_of_mem_plainBranches hc
    (by rw [here]; apply opcode.2) conditional
  obtain ⟨-, -, -, -, accepted⟩ := Finder.of_mem_walk hc
  obtain ⟨targetRva, ⟨-, fieldRva, word, loaded, stored, target⟩, judged⟩ :=
    (of_decide_eq_true accepted).2
  rw [stays, options_of_parse h, stay, Bool.not_true, Bool.or_false, if_neg Bool.false_ne_true]
    at judged
  rw [here] at loaded stored
  have place := loaded
  rw [offsetToRva?_eq_map (loadMap_of_parse h)] at place
  obtain ⟨t, first, rfl⟩ := Option.map_eq_some_iff.mp place
  have own : s.scanRegion.Holds (start + 2) := by
    have : 0 < displacementWidth := by decide
    simp only [Region.Holds]
    omega
  have leads : image.Leads (start + 2) (t.rvaOf (start + 2)) targetRva :=
    ⟨loaded, word, stored, target⟩
  use s, hs, t, t.rvaOf (start + 2), targetRva, by omega, by omega, leads, judged, first, rfl
  constructor
  · apply Section.containsRva_rvaOf
    apply Section.coversOffset_mapping_iff.mp
    apply List.find?_some first
  · intro same
    rw [same]
    apply Section.containsRva_rvaOf own

/-- The sample with another displacement in its conditional branch, whose instruction stands in
both sections: the branch now leads from the first section to the second. -/
def leavingBytes : Bytes :=
  sampleBytes.write 4 0x144 0x1000

/-- The image that `leavingBytes` holds. -/
def leaving : Image :=
  { sample with bytes := leavingBytes }

theorem parse_leavingBytes :
  parse .bits32 {} leavingBytes = .ok leaving
  := by
  have headersEnd : sampleBytes.headersEnd = 0x138 := by decide +kernel
  have size : sampleBytes.size = 0x160 := by decide +kernel
  have same : leavingBytes.size = sampleBytes.size := Bytes.size_write _ _ _ _
  have agree : Bytes.AgreeBelow sampleBytes.headersEnd sampleBytes leavingBytes := by
    constructor
    · omega
    · omega
    · intro i inside
      rw [leavingBytes, Bytes.getElem?_write, if_neg (by omega)]
  have kept : leavingBytes.extract 0 sample.size = leavingBytes :=
    Array.extract_eq_self_of_le (Nat.le_of_eq same)
  rw [parse_of_agreeBelow_headersEnd parse_sampleBytes agree (Nat.le_of_eq same.symm), kept]
  · rfl
  · rw [same, size]
    decide

/-- The conditional branch is found in the second section. -/
theorem mem_locations_leaving :
  0x142 + 2 ∈ leaving.locations .rel32
  := by
  have patched : (leaving.patchedLocations leaving.relocWalk.blocks).Perm
      [0x13E, 0x13E, 0x148] := by
    decide +kernel
  have avoided : leaving.avoidedLocations = [0x13E, 0x148] :=
    locations_reloc_of_perm patched (by decide)
  have found : (leaving.codeSections.flatMap fun s =>
      (leaving.sectionBranches [0x13E, 0x148] s).map (·.location)).Perm [0x139, 0x144] := by
    decide +kernel
  rw [locations_rel32_of_perm avoided found (by decide)]
  decide

/-- The target is in the second section, and the field is loaded in the first one. -/
theorem exists_section_of_conditional_leaving :
  ∃ s ∈ leaving.codeSections, ∃ t ∈ leaving.codeSections,
    s.containsRva 0x2010 = true ∧ t.containsRva 0x100C = true
      ∧ leaving.sections.find? (·.mapping.coversOffset 0x144) = some t
  := by
  have opcode : leaving.bytes[0x142]? = some 0x0F ∧ leaving.bytes[0x143]? = some 0x84 := by
    decide +kernel
  have displacement : leaving.bytes.read? displacementWidth 0x144 = some 0x1000 := by
    decide +kernel
  obtain ⟨s, hs, t, fieldRva, targetRva, -, -, ⟨loaded, word, stored, target⟩, stays, first, -,
    here, -⟩ := exists_section_of_conditional parse_leavingBytes rfl mem_locations_leaving opcode
      (by decide)
  obtain rfl : 0x100C = fieldRva := Option.some.inj loaded
  obtain rfl := Option.some.inj (displacement.symm.trans stored)
  obtain rfl : targetRva = 0x2010 := Int.ofNat.inj target
  have all : ∀ t ∈ leaving.sections, t ∈ leaving.codeSections := by decide
  use s, hs, t, all t (List.mem_of_find?_eq_some first), stays, here

/-- No section holds both the RVA at which the branch is loaded and the RVA of its target. -/
theorem conditional_leaves_section :
  parse .bits32 {} leavingBytes = .ok leaving
    ∧ leaving.options.branches.stayInSection = true
    ∧ 0x142 + 2 ∈ leaving.locations .rel32
    ∧ leaving.bytes[0x142]? = some 0x0F ∧ leaving.bytes[0x143]? = some 0x84
    ∧ ¬ ∃ s ∈ leaving.codeSections, ∃ fieldRva targetRva,
      s.scanRegion.offset ≤ 0x142
        ∧ 0x144 + displacementWidth ≤ s.scanRegion.offset + s.scanRegion.size
        ∧ leaving.Leads 0x144 fieldRva targetRva
        ∧ s.containsRva fieldRva = true ∧ s.containsRva targetRva = true
  := by
  use parse_leavingBytes, rfl, mem_locations_leaving, by decide +kernel, by decide +kernel
  rintro ⟨s, hs, fieldRva, targetRva, -, -, ⟨loaded, word, stored, target⟩, here, there⟩
  have displacement : leaving.bytes.read? displacementWidth 0x144 = some 0x1000 := by
    decide +kernel
  obtain rfl : 0x100C = fieldRva := Option.some.inj loaded
  obtain rfl := Option.some.inj (displacement.symm.trans stored)
  obtain rfl : targetRva = 0x2010 := Int.ofNat.inj target
  have apart : ∀ s ∈ leaving.codeSections,
      ¬ (s.containsRva 0x100C = true ∧ s.containsRva 0x2010 = true) := by
    decide
  apply apart s hs ⟨here, there⟩

end Image

end ImageRefs
