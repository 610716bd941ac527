import ImageRefs.Branch.Table
import ImageRefs.Proofs.Image.Parsed
import ImageRefs.Proofs.Reference.Location

/-!
# Locations of base relocations

The locations of the fields that base relocations patch ascend strictly, and the fields lie
inside the image.  Which fields these are depends on the set of RVAs that the entries of the
table patch (`Image.mem_locations_reloc_iff`), and on nothing else in the table
(`Image.locations_reloc_congr`).
-/

namespace ImageRefs

/-- Some entry of a kind patches the field at an RVA.  In which of the blocks the entry stands,
where in the block and how often does not matter, and neither do entries of other kinds. -/
def RelocBlock.Patched (kind : Nat) (blocks : List RelocBlock) (rva : Nat) : Prop :=
  ∃ block ∈ blocks, ∃ entry ∈ block.entries, entry.kind = kind
    ∧ block.pageRva + entry.pageOffset = rva ∧ rva < space32

namespace Image

variable {image : Image}

/-- The locations of absolute fields ascend strictly. -/
theorem pairwise_locations_reloc (image : Image) :
  (image.locations .reloc).Pairwise (· < ·)
  := by
  apply (Locations.pairwise_spaced 1 _).imp
  intro l m h
  apply h

/-- The field that a relocation entry patches lies inside the image. -/
theorem fits_of_relocLocation? {block : RelocBlock} {entry : RelocEntry} {l : Nat}
    (h : image.relocLocation? block entry = some l) :
  l + image.width.bytes ≤ image.bytes.size
  := by
  rw [relocLocation?] at h
  split at h
  · apply of_decide_eq_true (Option.filter_eq_some_iff.mp h).2
  · cases h

/-- Absolute fields lie inside the image. -/
theorem fits_of_mem_reloc {l : Nat} (h : l ∈ image.locations .reloc) :
  l + image.width.bytes ≤ image.bytes.size
  := by
  obtain ⟨block, -, h⟩ := List.mem_flatMap.mp (Locations.mem_of_mem_spaced h)
  obtain ⟨entry, -, h⟩ := List.mem_filterMap.mp h
  apply fits_of_relocLocation? h

/-! ### The fields that a table names -/

/-- An entry patches the field of the RVA that it names, if this has a file offset and the field
lies inside the image. -/
theorem relocLocation?_eq_some_iff {block : RelocBlock} {entry : RelocEntry} {l : Nat} :
  image.relocLocation? block entry = some l
    ↔ entry.kind = image.width.relocKind ∧ block.pageRva + entry.pageOffset < space32
      ∧ image.loadMap.rvaToOffset? (block.pageRva + entry.pageOffset) = some l
      ∧ l + image.width.bytes ≤ image.size
  := by
  rw [relocLocation?]
  split
  · next kind =>
    rw [Option.filter_eq_some_iff, RelocBlock.targetRva?, holdsField, decide_eq_true_iff]
    split
    · next bound => simp [kind, bound, size]
    · next beyond => simp [beyond]
  · next other => simp [other]

/-- The fields that a list of blocks patches are those of the RVAs that its entries name. -/
theorem mem_patchedLocations_iff {blocks : List RelocBlock} {l : Nat} :
  l ∈ image.patchedLocations blocks
    ↔ ∃ rva, RelocBlock.Patched image.width.relocKind blocks rva
      ∧ image.loadMap.rvaToOffset? rva = some l ∧ l + image.width.bytes ≤ image.size
  := by
  simp only [patchedLocations, List.mem_flatMap, List.mem_filterMap, relocLocation?_eq_some_iff]
  constructor
  · rintro ⟨block, hblock, entry, hentry, kind, bound, found, fits⟩
    use block.pageRva + entry.pageOffset, ⟨block, hblock, entry, hentry, kind, rfl, bound⟩, found
  · rintro ⟨_, ⟨block, hblock, entry, hentry, kind, rfl, bound⟩, found, fits⟩
    use block, hblock, entry, hentry, kind, bound, found

/-- The absolute fields of an image are those of the RVAs that the entries of its base
relocation table name. -/
theorem mem_locations_reloc_iff {l : Nat} :
  l ∈ image.locations .reloc
    ↔ ∃ rva, RelocBlock.Patched image.width.relocKind image.relocWalk.blocks rva
      ∧ image.loadMap.rvaToOffset? rva = some l ∧ l + image.width.bytes ≤ image.size
  := by
  rw [locations, relocTable, Locations.mem_spaced_one_iff, mem_patchedLocations_iff]

/-- The blocks of a base relocation table that has a file offset are read from there. -/
theorem relocWalk_eq {directory : DataDirectory} {offset : Nat}
    (present : image.relocationDirectory = some directory)
    (loaded : image.loadMap.rvaToOffset? directory.rva = some offset) :
  image.relocWalk = RelocWalk.ofRegion image.bytes ⟨offset, directory.size⟩
  := by
  simp only [relocWalk, present, loaded]

/-- The locations of the absolute fields are the patched ones in ascending order, without
repetitions. -/
theorem locations_reloc_of_perm {sorted : List Nat}
    (patched : (image.patchedLocations image.relocWalk.blocks).Perm sorted)
    (ascending : sorted.Pairwise (· ≤ ·)) :
  image.locations .reloc = Locations.spacedFrom 1 0 sorted
  := Locations.spaced_of_perm patched ascending

/-- Images with the same load map and size have absolute fields at the same locations, if the
entries of their base relocation tables name the same RVAs. -/
theorem locations_reloc_congr {other : Image} (width : other.width = image.width)
    (loadMap : other.loadMap = image.loadMap) (size : other.size = image.size)
    (same : ∀ rva, RelocBlock.Patched image.width.relocKind other.relocWalk.blocks rva
      ↔ RelocBlock.Patched image.width.relocKind image.relocWalk.blocks rva) :
  other.locations .reloc = image.locations .reloc
  := by
  apply Locations.spaced_one_congr
  intro l
  simp only [mem_patchedLocations_iff, width, loadMap, size, same]

/-! ### The fields that a scan leaves out -/

/-- The absolute fields that a scan leaves out are absolute fields of the image. -/
theorem mem_reloc_of_mem_avoided {l : Nat} (h : l ∈ image.avoidedLocations) :
  l ∈ image.locations .reloc
  := by
  rw [avoidedLocations] at h
  split at h
  · apply h
  · cases h

/-- The absolute fields that a scan leaves out have ascending locations. -/
theorem pairwise_avoidedLocations (image : Image) :
  image.avoidedLocations.Pairwise (· ≤ ·)
  := by
  rw [avoidedLocations]
  split
  · apply image.pairwise_locations_reloc.imp
    apply Nat.le_of_lt
  · apply List.Pairwise.nil

/-- The absolute fields of the sample; a third entry of its table repeats the first. -/
theorem locations_reloc_sample :
  sample.locations .reloc = [0x13E, 0x148]
  := by
  have patched : (sample.patchedLocations sample.relocWalk.blocks).Perm
      [0x13E, 0x13E, 0x148] := by
    decide +kernel
  apply locations_reloc_of_perm patched (by decide)

end Image

end ImageRefs
