import ImageRefs.Proofs.Reference.Apart

/-!
# Disjoint code

Two branches of one section do not overlap, whether they are found in the same gap or in two
(`Image.pairwise_sectionBranches`).  Branches of different sections overlap only if the sections
share bytes of the file.  If no two code sections do, every location that the scan finds is
kept: the locations of the relative fields are the ones found, in ascending order
(`Image.locations_rel32_of_disjoint`).  In which order the table names the sections does not
matter.
-/

namespace ImageRefs.Image

variable {image : Image} {s t : Section} {c d : Candidate}

/-- The locations of the accepted branches, section by section and gap by gap, as the scan of
the image finds them. -/
def foundLocations (image : Image) : List Nat :=
  image.codeSections.flatMap fun s =>
    (image.sectionBranches image.avoidedLocations s).map (·.location)

/-- The relative fields are at the locations found, in ascending order and spaced. -/
theorem locations_rel32_eq_spaced (image : Image) :
  image.locations .rel32 = Locations.spaced displacementWidth image.foundLocations
  := rfl

/-- The branches of a section do not overlap, and are found in ascending order. -/
theorem pairwise_sectionBranches (wf : image.WellFormed) (hs : s ∈ image.codeSections) :
  (image.sectionBranches image.avoidedLocations s).Pairwise fun c d => c.stop ≤ d.start
  := by
  rw [sectionBranches_eq wf (List.mem_filter.mp hs).1]
  apply Finder.pairwise_walk

/-- A branch of a section ends with its displacement, and stands in the bytes that are scanned. -/
theorem inside_of_mem_sectionBranches (wf : image.WellFormed) (hs : s ∈ image.codeSections)
    (hc : c ∈ image.sectionBranches image.avoidedLocations s) :
  s.scanRegion.offset ≤ c.start ∧ c.start < c.location
    ∧ c.location + displacementWidth = c.stop
    ∧ c.stop ≤ s.scanRegion.offset + s.scanRegion.size
  := by
  rw [sectionBranches_eq wf (List.mem_filter.mp hs).1] at hc
  obtain ⟨early, long, -⟩ := of_mem_plainBranches hc
  obtain ⟨low, high⟩ := inside_of_mem_plainBranches hc
  use low, early, long

/-- The locations found in a section are spaced. -/
theorem pairwise_location_sectionBranches (wf : image.WellFormed) (hs : s ∈ image.codeSections) :
  ((image.sectionBranches image.avoidedLocations s).map (·.location)).Pairwise
    fun l m => l + displacementWidth ≤ m
  := by
  apply List.pairwise_map.mpr
  apply (pairwise_sectionBranches wf hs).imp_of_mem
  intro c d hc hd behind
  obtain ⟨-, -, long, -⟩ := inside_of_mem_sectionBranches wf hs hc
  obtain ⟨-, early, -⟩ := inside_of_mem_sectionBranches wf hs hd
  omega

/-- Branches of disjoint sections are apart. -/
theorem apart_of_disjoint_sections (wf : image.WellFormed)
    (disjoint : s.scanRegion.Disjoint t.scanRegion) (hs : s ∈ image.codeSections)
    (ht : t ∈ image.codeSections) (hc : c ∈ image.sectionBranches image.avoidedLocations s)
    (hd : d ∈ image.sectionBranches image.avoidedLocations t) :
  c.location + displacementWidth ≤ d.location ∨ d.location + displacementWidth ≤ c.location
  := by
  obtain ⟨lowC, earlyC, longC, highC⟩ := inside_of_mem_sectionBranches wf hs hc
  obtain ⟨lowD, earlyD, longD, highD⟩ := inside_of_mem_sectionBranches wf ht hd
  rcases Region.disjoint_iff.mp disjoint with empty | empty | before | behind
  · omega
  · omega
  · left
    omega
  · right
    omega

/-- Any two of the locations found in disjoint sections are apart. -/
theorem pairwise_foundLocations (wf : image.WellFormed)
    (disjoint : image.codeSections.Pairwise fun s t => s.scanRegion.Disjoint t.scanRegion) :
  image.foundLocations.Pairwise fun l m =>
    l + displacementWidth ≤ m ∨ m + displacementWidth ≤ l
  := by
  apply List.pairwise_flatMap.mpr
  constructor
  · intro s hs
    apply (pairwise_location_sectionBranches wf hs).imp
    intro l m
    apply Or.inl
  · apply disjoint.imp_of_mem
    intro s t hs ht disjoint l hl m hm
    obtain ⟨c, hc, rfl⟩ := List.mem_map.mp hl
    obtain ⟨d, hd, rfl⟩ := List.mem_map.mp hm
    apply apart_of_disjoint_sections wf disjoint hs ht hc hd

/-- In each section branches are found at ascending locations.  If the scanned bytes of the code
sections are disjoint, moreover:

* once they are sorted, the locations found are far enough apart for their fields;
* the relative fields are at exactly these locations;
* so every accepted branch gives a relative field. -/
theorem locations_rel32_of_disjoint {width : Width} {options : Options} {data : Bytes}
    (h : parse width options data = .ok image) :
  (∀ s ∈ image.codeSections,
      ((image.sectionBranches image.avoidedLocations s).map (·.location)).Pairwise (· < ·))
    ∧ (image.codeSections.Pairwise (fun s t => s.scanRegion.Disjoint t.scanRegion) →
      image.foundLocations.mergeSort.Pairwise (fun l m => l + displacementWidth ≤ m)
        ∧ image.locations .rel32 = image.foundLocations.mergeSort
        ∧ ∀ s ∈ image.codeSections,
          ∀ c ∈ image.sectionBranches image.avoidedLocations s,
            c.location ∈ image.locations .rel32)
  := by
  have wf := wellFormed_of_parse h
  constructor
  · intro s hs
    apply (pairwise_location_sectionBranches wf hs).imp
    intro l m spaced
    apply Nat.lt_of_lt_of_le (Nat.lt_add_of_pos_right (by decide)) spaced
  · intro disjoint
    have spaced := Locations.pairwise_mergeSort_of_apart (pairwise_foundLocations wf disjoint)
    have kept : image.locations .rel32 = image.foundLocations.mergeSort := by
      rw [locations_rel32_eq_spaced, Locations.spaced]
      apply Locations.spacedFrom_eq_self spaced
      intro l _
      apply Nat.zero_le
    use spaced, kept
    intro s hs c hc
    rw [kept]
    apply List.mem_mergeSort.mpr
    apply List.mem_flatMap.mpr
    use s, hs
    apply List.mem_map_of_mem hc

/-! ### Disjoint sections out of order -/

/-- Two sections with code, of which the first one lies behind the second. -/
def swappedSections : List Section := [
  ⟨[0x2E, 0x68, 0x6F, 0x74, 0, 0, 0, 0], 0x18, 0x2000, 0x18, 0x14C, 0x20000020⟩,
  ⟨[0x2E, 0x74, 0x65, 0x78, 0x74, 0, 0, 0], 0x14, 0x1000, 0x14, 0x138, 0x20000020⟩]

/-- The headers of `sampleBytes` with another directory and other sections, its code up to the
base relocation table, a jump, and the table. -/
def swappedBytes : Bytes :=
  (sampleBytes.toList.take 0xE0 ++ toLE 4 0x2008 ++ toLE 4 0x10
    ++ swappedSections.flatMap sampleHeader
    ++ sampleCode.take 0x14 ++ [0xE9, 0, 0, 0, 0, 0x90, 0x90, 0x90]
    ++ (sampleCode.drop 0x14).take 0x10).toArray

/-- The image that `swappedBytes` holds. -/
def swapped : Image where
  width := .bits32
  options := {}
  bytes := swappedBytes
  sections := swappedSections
  imageBase := 0x400000
  relocationDirectory := some ⟨0x2008, 0x10⟩
  loadMap := ⟨swappedSections.map Section.mapping⟩

theorem parse_swappedBytes :
  parse .bits32 {} swappedBytes = .ok swapped
  := by
  apply parse_eq_ok_iff.mpr
  constructor
  · decide +kernel
  · use ⟨dosSignature, 0x40⟩, ⟨⟨.i386, 2, 0, 0x90, 0⟩,
      ⟨.bits32, 0, 0x400000, 0, 0, 0x3000, 0, 6⟩,
      [⟨0, 0⟩, ⟨0, 0⟩, ⟨0, 0⟩, ⟨0, 0⟩, ⟨0, 0⟩, ⟨0x2008, 0x10⟩], 0xE8⟩,
      swappedSections, ⟨swappedSections.map Section.mapping, 0x164⟩,
      ⟨swappedSections.map Section.mapping⟩
    and_intros
    · decide +kernel
    · decide +kernel
    · rfl
    · decide +kernel
    · decide +kernel
    · decide +kernel
    · rw [Array.extract_eq_self_of_le (by decide +kernel)]
      rfl

/-- The jump is found first, then a call and, behind an absolute field, a conditional branch; all
three are kept. -/
theorem locations_rel32_of_disjoint_swapped :
  swapped.foundLocations = [0x14D, 0x139, 0x144]
    ∧ swapped.locations .rel32 = [0x139, 0x144, 0x14D]
  := by
  have patched : (swapped.patchedLocations swapped.relocWalk.blocks).Perm
      [0x13E, 0x13E, 0x148] := by
    decide +kernel
  have avoided : swapped.avoidedLocations = [0x13E, 0x148] :=
    locations_reloc_of_perm patched (by decide)
  have found : swapped.foundLocations = [0x14D, 0x139, 0x144] := by
    rw [foundLocations, avoided]
    decide +kernel
  obtain ⟨-, kept⟩ := locations_rel32_of_disjoint parse_swappedBytes
  obtain ⟨-, kept, -⟩ := kept (by decide)
  use found
  rw [kept, found]
  apply Locations.mergeSort_eq_of_perm (by decide) (by decide)

end ImageRefs.Image
