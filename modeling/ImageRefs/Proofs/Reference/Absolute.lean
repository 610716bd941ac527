import ImageRefs.Proofs.Reference.Location
import ImageRefs.Proofs.Reference.Read
import ImageRefs.Proofs.Reference.Unchanged
import ImageRefs.Proofs.Reloc.Table

/-!
# Absolute references

An absolute field holds a reference if the address in it has a valid RVA.  The absolute
references of an image are those in the fields that its base relocation table names
(`Image.references_reloc`).  A table that names the same fields in another order, in other
blocks, or more than once gives the same references.
-/

namespace ImageRefs.Image

variable {image : Image}

/-- The absolute references of a window are those in the absolute fields of the window. -/
theorem mem_references_reloc_iff {low high : Nat} {r : Reference} :
  r ∈ image.references .reloc low high
    ↔ r.location ∈ image.locations .reloc ∧ low ≤ r.location ∧ r.location < high
      ∧ image.bytes.read? image.width.bytes r.location = some r.target
      ∧ ∃ rva, image.addressSpace.addressToRva? r.target = some rva
        ∧ image.loadMap.validRva rva = true
  := by
  have ascending := image.pairwise_locations_reloc.imp Nat.le_of_lt
  simp only [references, AddressSpace.readAll, Locations.within_eq_filter ascending,
    List.mem_filterMap, List.mem_filter, decide_eq_true_iff,
    AddressSpace.read?_reloc_eq_some_iff]
  constructor
  · rintro ⟨_, ⟨inside, window⟩, rfl, stored, rva, valid⟩
    use inside, window.1, window.2, stored, rva, valid.1, valid.2
  · rintro ⟨inside, low, high, stored, rva, valid⟩
    use r.location, ⟨inside, low, high⟩, rfl, stored, rva, valid.1, valid.2

/-- The absolute references of a window are in ascending order of their locations. -/
theorem pairwise_references_reloc (image : Image) (low high : Nat) :
  ((image.references .reloc low high).map (·.location)).Pairwise (· < ·)
  := by
  apply List.Pairwise.sublist _ image.pairwise_locations_reloc
  apply (AddressSpace.map_location_readAll_sublist image.based_addressSpace _).trans
  apply Locations.within_sublist

/-- Images with the same address space have the same absolute references, if their absolute
fields are at the same locations and hold the same words. -/
theorem references_reloc_congr {other : Image}
    (space : other.addressSpace = image.addressSpace)
    (locations : other.locations .reloc = image.locations .reloc)
    (words : ∀ l ∈ image.locations .reloc,
      other.bytes.read? image.width.bytes l = image.bytes.read? image.width.bytes l)
    (low high : Nat) :
  other.references .reloc low high = image.references .reloc low high
  := by
  rw [references, references, space, locations, AddressSpace.readAll, AddressSpace.readAll]
  apply List.filterMap_congr
  intro l hl
  have word := words l ((Locations.within_sublist _ _ _).subset hl)
  rw [AddressSpace.read?_eq_bind, AddressSpace.read?_eq_bind]
  congr 1

/-- The absolute references of an image whose base relocation table has a file offset.

* The absolute fields ascend, and they are those that some entry of the table names.
* In a window of the image those fields hold a reference whose address has a valid RVA; the
  references ascend, and their targets are the addresses stored in the fields.
* Another image that is loaded in the same way has the same absolute fields if the entries of
  its table name the same RVAs, and it has the same references if the fields hold the same
  words. -/
theorem references_reloc {directory : DataDirectory} {offset : Nat}
    (present : image.relocationDirectory = some directory)
    (loaded : image.loadMap.rvaToOffset? directory.rva = some offset) :
  (image.locations .reloc).Pairwise (· < ·)
    ∧ (∀ l, l ∈ image.locations .reloc
      ↔ ∃ rva, RelocBlock.Patched image.width.relocKind
          (RelocWalk.ofRegion image.bytes ⟨offset, directory.size⟩).blocks rva
        ∧ image.loadMap.rvaToOffset? rva = some l ∧ l + image.width.bytes ≤ image.size)
    ∧ (∀ low high, ((image.references .reloc low high).map (·.location)).Pairwise (· < ·)
      ∧ ∀ r, r ∈ image.references .reloc low high
        ↔ r.location ∈ image.locations .reloc ∧ low ≤ r.location ∧ r.location < high
          ∧ image.bytes.read? image.width.bytes r.location = some r.target
          ∧ ∃ rva, image.addressSpace.addressToRva? r.target = some rva
            ∧ image.loadMap.validRva rva = true)
    ∧ ∀ other : Image, other.width = image.width → other.loadMap = image.loadMap →
      other.size = image.size →
      (∀ rva, RelocBlock.Patched image.width.relocKind other.relocWalk.blocks rva
        ↔ RelocBlock.Patched image.width.relocKind image.relocWalk.blocks rva) →
      other.locations .reloc = image.locations .reloc
      ∧ (other.imageBase = image.imageBase →
        (∀ l ∈ image.locations .reloc,
          other.bytes.read? image.width.bytes l = image.bytes.read? image.width.bytes l) →
        ∀ low high, other.references .reloc low high = image.references .reloc low high)
  := by
  and_intros
  · apply image.pairwise_locations_reloc
  · intro l
    rw [mem_locations_reloc_iff, relocWalk_eq present loaded]
  · intro low high
    use image.pairwise_references_reloc low high
    intro r
    apply mem_references_reloc_iff
  · intro other width loadMap size same
    have locations := locations_reloc_congr width loadMap size same
    use locations
    intro base words
    apply references_reloc_congr _ locations words
    rw [addressSpace, addressSpace, width, loadMap, base]

/-- The sample with another order of the entries in its base relocation table.  One of the two
fields is named twice, and an entry of another kind names the other one once more. -/
def shuffledSample : Image :=
  { sample with
    bytes := sampleBytes.overwrite 0x154
      (toLE 2 0x3010 ++ toLE 2 0xA006 ++ toLE 2 0x3006 ++ toLE 2 0x3010) }

/-- In the sample one of two absolute fields holds a reference, and the order of the entries in
the table does not matter. -/
theorem references_reloc_sample :
  ⟨0x13E, 0x401000⟩ ∈ sample.references .reloc 0x13E 0x149
    ∧ (∀ target, ⟨0x148, target⟩ ∉ sample.references .reloc 0x13E 0x149)
    ∧ shuffledSample.locations .reloc = sample.locations .reloc
  := by
  obtain ⟨-, -, read, table⟩ := @references_reloc sample ⟨0x1014, 0x10⟩ 0x14C rfl rfl
  obtain ⟨-, read⟩ := read 0x13E 0x149
  and_intros
  · apply (read _).mpr
    rw [locations_reloc_sample]
    decide +kernel
  · intro target h
    obtain ⟨-, -, -, stored, rva, found, valid⟩ := (read _).mp h
    have word : sample.bytes.read? 4 0x148 = some 0x500000 := by
      decide +kernel
    obtain rfl := Option.some.inj (word.symm.trans stored)
    obtain rfl : 0x100000 = rva := Option.some.inj found
    revert valid
    decide
  · have entries : sample.relocWalk.blocks
        = [⟨0x14C, 0x1000, [⟨3, 6⟩, ⟨3, 0x10⟩, ⟨0, 0⟩, ⟨3, 6⟩]⟩] := by
      decide +kernel
    have shuffled : shuffledSample.relocWalk.blocks
        = [⟨0x14C, 0x1000, [⟨3, 0x10⟩, ⟨10, 6⟩, ⟨3, 6⟩, ⟨3, 0x10⟩]⟩] := by
      decide +kernel
    have size : shuffledSample.size = sample.size := by
      rw [Image.size, shuffledSample, Bytes.size_overwrite]
      rfl
    apply (table shuffledSample rfl rfl size _).1
    intro rva
    rw [entries, shuffled]
    simp +contextual [RelocBlock.Patched, sample, Width.relocKind, or_comm]

end ImageRefs.Image
