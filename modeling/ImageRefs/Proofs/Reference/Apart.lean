import ImageRefs.Proofs.Branch.PlainScan

/-!
# References do not overlap

The relative fields of an image lie apart from each other and inside the image.  If the scan
for branches leaves the absolute fields out, the relative fields lie apart from all of those
too (`Image.locations_apart`).  Absolute fields may overlap each other.
-/

namespace ImageRefs.Image

variable {image : Image} {s : Section} {c : Candidate}

/-- The instructions that the plain scan finds lie inside the image, end with their
displacement, and spare the absolute fields. -/
theorem of_mem_plainBranches (h : c ∈ image.plainBranches s) :
  c.start < c.location ∧ c.location + displacementWidth = c.stop
    ∧ c.stop ≤ image.bytes.size ∧ image.Spares c
  := by
  obtain ⟨low, early, long, inside, accepted⟩ := Finder.of_mem_walk h
  rw [Bytes.length_span] at inside
  use early, long
  constructor
  · omega
  · apply (of_decide_eq_true accepted).1

/-- The instructions that the plain scan of a section finds lie inside the bytes of it that are
scanned. -/
theorem inside_of_mem_plainBranches (h : c ∈ image.plainBranches s) :
  s.scanRegion.offset ≤ c.start ∧ c.stop ≤ s.scanRegion.offset + s.scanRegion.size
  := by
  obtain ⟨low, early, long, inside, -⟩ := Finder.of_mem_walk h
  rw [Bytes.length_span] at inside
  simp only [Section.scanRegion]
  omega

/-- A relative field is the displacement of a branch that the plain scan of a section
finds. -/
theorem exists_of_mem_rel32 (wf : image.WellFormed) {l : Nat} (h : l ∈ image.locations .rel32) :
  ∃ s ∈ image.codeSections, ∃ c ∈ image.plainBranches s, c.location = l
  := by
  obtain ⟨s, hs, h⟩ := List.mem_flatMap.mp (Locations.mem_of_mem_spaced h)
  obtain ⟨c, hc, here⟩ := List.mem_map.mp h
  rw [sectionBranches_eq wf (List.mem_filter.mp hs).1] at hc
  use s, hs, c, hc

/-- Each relative field ends before the next one begins. -/
theorem pairwise_locations_rel32 (image : Image) :
  (image.locations .rel32).Pairwise fun l m => l + displacementWidth ≤ m
  := Locations.pairwise_spaced _ _

/-- The fields of an image lie inside of it. -/
theorem fits_of_mem_locations (wf : image.WellFormed) {kind : ReferenceKind} {l : Nat}
    (h : l ∈ image.locations kind) :
  l + kind.fieldWidth image.width ≤ image.bytes.size
  := by
  cases kind with
  | reloc => apply fits_of_mem_reloc h
  | rel32 =>
    obtain ⟨s, -, c, hc, rfl⟩ := exists_of_mem_rel32 wf h
    obtain ⟨-, long, inside, -⟩ := of_mem_plainBranches hc
    rw [ReferenceKind.fieldWidth, long]
    apply inside

/-- The relative fields lie apart from the absolute fields, if these are left out. -/
theorem apart_of_mem_locations (wf : image.WellFormed)
    (avoid : image.options.branches.avoidRelocations = true) {r l : Nat}
    (hr : r ∈ image.locations .rel32) (hl : l ∈ image.locations .reloc) :
  (image.addressSpace.fieldAt .rel32 r).Apart (image.addressSpace.fieldAt .reloc l)
  := by
  obtain ⟨s, -, c, hc, rfl⟩ := exists_of_mem_rel32 wf hr
  obtain ⟨early, long, -, spares⟩ := of_mem_plainBranches hc
  rcases spares avoid l hl with before | behind
  · left
    apply Nat.le_trans (Nat.le_of_eq long) before
  · right
    apply Nat.le_trans behind (Nat.le_of_lt early)

/-- The fields of a parsed image: those of either kind ascend and lie inside the image, at
offsets of 32 bits, relative fields do not overlap each other, and they do not overlap
absolute fields if these are left out. -/
theorem locations_apart {width : Width} {options : Options} {data : Bytes}
    (h : parse width options data = .ok image) :
  (image.locations .rel32).Pairwise (fun l m => l + displacementWidth ≤ m)
    ∧ (∀ l ∈ image.locations .rel32, l + displacementWidth ≤ image.bytes.size)
    ∧ (image.locations .reloc).Pairwise (· < ·)
    ∧ (∀ l ∈ image.locations .reloc, l + width.bytes ≤ image.bytes.size)
    ∧ image.bytes.size < space32
    ∧ (options.branches.avoidRelocations = true →
      ∀ r ∈ image.locations .rel32, ∀ l ∈ image.locations .reloc,
        Region.Apart ⟨r, displacementWidth⟩ ⟨l, width.bytes⟩)
  := by
  have wf := wellFormed_of_parse h
  obtain rfl := width_of_parse h
  obtain rfl := options_of_parse h
  use image.pairwise_locations_rel32, fun _ => fits_of_mem_locations wf,
    image.pairwise_locations_reloc, fun _ => fits_of_mem_reloc, wf.size_lt
  intro avoid r hr l hl
  apply apart_of_mem_locations wf avoid hr hl

/-- In the sample an instruction ends where an absolute field begins, and another one where a
field begins whose address lies outside the image. -/
theorem locations_apart_sample :
  sample.locations .rel32 = [0x139, 0x144] ∧ sample.locations .reloc = [0x13E, 0x148]
    ∧ ∀ r ∈ sample.locations .rel32, ∀ l ∈ sample.locations .reloc,
      Region.Apart ⟨r, 4⟩ ⟨l, 4⟩
  := by
  use locations_rel32_sample, locations_reloc_sample
  obtain ⟨-, -, -, -, -, apart⟩ := locations_apart parse_sampleBytes
  apply apart rfl

end ImageRefs.Image
