import ImageRefs.Branch.Table
import ImageRefs.Proofs.Branch.Gap
import ImageRefs.Proofs.Image.Parsed
import ImageRefs.Proofs.Reference.Word
import ImageRefs.Proofs.Reloc.Table
import Mathlib.Data.List.Basic

/-!
# A plain scan for branches

`Image.plainBranches` finds the branches of a section by walking through all of its loaded
bytes, one byte after the other, and judging each branch on its own.  The scan of an image,
which walks in the gaps between absolute fields and passes over bytes, finds the same
branches (`Image.locations_rel32_eq`).
-/

namespace ImageRefs.Image

variable {image : Image} {s : Section} {c : Candidate}

/-- An instruction meets no absolute field, if absolute fields are to be left out. -/
def Spares (image : Image) (c : Candidate) : Prop :=
  image.options.branches.avoidRelocations = true →
    c.Avoids image.width.bytes (image.locations .reloc)

/-- A branch found in a section has a target: its field is loaded, and it points to an RVA
that is valid, or that lies in the section if the branch must stay there. -/
def HasTarget (image : Image) (s : Section) (c : Candidate) : Prop :=
  ∃ targetRva,
    (targetRva < space32 ∧ ∃ fieldRva word,
      image.loadMap.offsetToRva? c.location = some fieldRva
      ∧ image.bytes.read? displacementWidth c.location = some word
      ∧ (targetRva : Int) = fieldRva + displacementWidth + signed32 word)
    ∧ if c.mayLeaveSection || !image.options.branches.stayInSection then
        image.loadMap.validRva targetRva = true
      else s.containsRva targetRva = true

/-- A branch is accepted in a section exactly if it has a target. -/
theorem accepts_iff :
  image.accepts s c = true ↔ image.HasTarget s c
  := by
  have stored (targetRva : Nat) :
      image.addressSpace.storedTarget? image.bytes c.location = some targetRva
        ↔ targetRva < space32 ∧ ∃ fieldRva word,
          image.loadMap.offsetToRva? c.location = some fieldRva
            ∧ image.bytes.read? displacementWidth c.location = some word
            ∧ (targetRva : Int) = fieldRva + displacementWidth + signed32 word :=
    AddressSpace.storedTarget?_eq_some_iff
  simp only [HasTarget, ← stored]
  rw [accepts]
  cases image.addressSpace.storedTarget? image.bytes c.location with
  | none => simp
  | some rva =>
    simp only [Option.some.injEq, exists_eq_left']
    split
    · rfl
    · rfl

instance (image : Image) (c : Candidate) : Decidable (image.Spares c) :=
  inferInstanceAs (Decidable (_ → _))

instance (image : Image) (s : Section) (c : Candidate) : Decidable (image.HasTarget s c) :=
  decidable_of_iff _ accepts_iff

/-- The branches of a section, found by walking byte by byte through the bytes of it that are
loaded: where a branch stands that spares the absolute fields and has a target, the walk goes
on behind it, and elsewhere at the next byte. -/
def plainBranches (image : Image) (s : Section) : List Candidate :=
  image.finder.walk (fun c => decide (image.Spares c ∧ image.HasTarget s c)) s.rawOffset
    (image.bytes.span s.rawOffset (s.rawOffset + min s.virtualSize s.rawSize))

/-- The branches of a region of a section are those that walking through it finds. -/
theorem branchesIn_eq_walk (image : Image) (s : Section) (region : Region) :
  image.branchesIn s region
    = image.finder.walk (image.accepts s) region.offset (region.clamped image.bytes)
  := by
  have walk : image.branchesIn s region
      = image.finder.walk (image.accepts s) (min region.offset (min region.stop image.bytes.size))
        (region.clamped image.bytes) := Scanner.accepted_eq_walk _ _
  rw [walk, Region.clamped, ← Bytes.span]
  rcases Nat.le_total region.offset (min region.stop image.bytes.size) with order | beyond
  · rw [Nat.min_eq_left order]
  · rw [Bytes.span_of_le _ beyond, Finder.walk_nil, Finder.walk_nil]

/-- The candidates accepted around the avoided fields are those that spare the absolute
fields and have a target. -/
theorem around_avoidedLocations (image : Image) (s : Section) (c : Candidate) :
  Gap.around image.width.bytes image.avoidedLocations (image.accepts s) c
    = decide (image.Spares c ∧ image.HasTarget s c)
  := by
  have spares : c.Avoids image.width.bytes image.avoidedLocations ↔ image.Spares c := by
    rw [Spares, avoidedLocations]
    split
    · next on => simp only [on, forall_const]; rfl
    · next off => simp [off, Candidate.Avoids]
  rw [Gap.around, Bool.decide_and, decide_eq_decide.mpr spares]
  congr 1
  apply Bool.eq_iff_iff.mpr
  rw [accepts_iff, decide_eq_true_iff]

/-- The scan of a section of a well-formed image finds the branches of the plain scan. -/
theorem sectionBranches_eq (wf : image.WellFormed) (hs : s ∈ image.sections) :
  image.sectionBranches image.avoidedLocations s = image.plainBranches s
  := by
  have positive : 0 < image.width.bytes := by cases image.width <;> decide
  have small : image.bytes.size < space64 := Nat.lt_trans wf.size_lt (by decide)
  have inside : s.rawOffset + min s.virtualSize s.rawSize ≤ image.bytes.size := by
    have := wf.rawEnd_le s hs
    rw [Section.rawEnd] at this
    omega
  have ends : ∀ l ∈ image.avoidedLocations, l + image.width.bytes < space64 := by
    intro l hl
    apply Nat.lt_of_le_of_lt (fits_of_mem_reloc (mem_reloc_of_mem_avoided hl)) small
  have walks : image.branchesIn s = fun region : Region =>
      image.finder.walk (image.accepts s) region.offset (region.clamped image.bytes) := by
    funext region
    apply branchesIn_eq_walk
  rw [sectionBranches, plainBranches, walks,
    Gap.flatMap_ofRegion small inside positive image.pairwise_avoidedLocations ends]
  simp only [← around_avoidedLocations]
  rfl

/-- The scan of an image finds the branches of the plain scan: the locations of its relative
fields are those of the branches of all code sections, in ascending order, without those whose
fields would overlap the last one kept. -/
theorem locations_rel32_eq {width : Width} {options : Options} {data : Bytes}
    (h : parse width options data = .ok image) :
  image.locations .rel32
    = Locations.spaced displacementWidth
      (image.codeSections.flatMap fun s => (image.plainBranches s).map (·.location))
  := by
  have found : ∀ s ∈ image.codeSections,
      (image.sectionBranches image.avoidedLocations s).map (·.location)
        = (image.plainBranches s).map (·.location) := by
    intro s hs
    rw [sectionBranches_eq (wellFormed_of_parse h) (List.mem_filter.mp hs).1]
  rw [locations, branchLocations, branchesAround, List.flatMap_congr found]

/-- The locations of the relative fields are those of the branches found around the absolute
fields in ascending order, without those whose fields would overlap the last one kept. -/
theorem locations_rel32_of_perm {avoided sorted : List Nat}
    (around : image.avoidedLocations = avoided)
    (found : (image.codeSections.flatMap fun s =>
      (image.sectionBranches avoided s).map (·.location)).Perm sorted)
    (ascending : sorted.Pairwise (· ≤ ·)) :
  image.locations .rel32 = Locations.spacedFrom displacementWidth 0 sorted
  := by
  subst around
  apply Locations.spaced_of_perm found ascending

/-- The relative fields of the sample.  The conditional branch stands in both sections and stays
in the first. -/
theorem locations_rel32_sample :
  sample.locations .rel32 = [0x139, 0x144]
  := by
  have found : (sample.codeSections.flatMap fun s =>
      (sample.sectionBranches [0x13E, 0x148] s).map (·.location)).Perm [0x139, 0x144] := by
    decide +kernel
  have avoided : sample.avoidedLocations = [0x13E, 0x148] := locations_reloc_sample
  apply locations_rel32_of_perm avoided found (by decide)

/-- The plain scan of the sample. -/
theorem spaced_plainBranches_sample :
  Locations.spaced displacementWidth
      (sample.codeSections.flatMap fun s => (sample.plainBranches s).map (·.location))
    = [0x139, 0x144]
  := by
  rw [← locations_rel32_eq parse_sampleBytes]
  apply locations_rel32_sample

end ImageRefs.Image
