import ImageRefs.Proofs.Reference.Apart
import ImageRefs.Proofs.Reference.Read
import ImageRefs.Proofs.Reference.Unchanged
import ImageRefs.Proofs.Reference.WriteEach

/-!
# Retargeting references

The references of an image are given new targets, written into a copy of it and read back
(`Image.readAll_writeAll`).  None is lost, because the fields lie apart from each other: those
of relative references always do, from absolute fields too if a scan leaves these out, and
absolute fields must be far enough apart.
-/

namespace ImageRefs.Image

variable {image : Image} {kind : ReferenceKind} {references relocs rel32s : List Reference}

/-- A list of references gives the references of an image new targets: they have the
locations of those that are read from it, and each of them can be encoded. -/
structure Retargets (image : Image) (kind : ReferenceKind) (references : List Reference) :
    Prop where
  locations : references.map (·.location)
    = (image.references kind 0 (space32 - 1)).map (·.location)
  encodable : ∀ r ∈ references, image.addressSpace.Encodable kind r

namespace Retargets

/-- References with new targets lie at locations of the image, in their order. -/
theorem sublist (new : image.Retargets kind references) :
  (references.map (·.location)).Sublist (image.locations kind)
  := by
  rw [new.locations]
  apply (AddressSpace.map_location_readAll_sublist image.based_addressSpace _).trans
  apply Locations.within_sublist

/-- References with new targets can be stored in the image. -/
theorem storable (wf : image.WellFormed) (new : image.Retargets kind references)
    {r : Reference} (h : r ∈ references) :
  image.addressSpace.Storable image.bytes.size kind r
  := by
  have here := List.mem_map_of_mem (f := (·.location)) h
  constructor
  · apply new.encodable r h
  · rintro rfl
    rw [new.locations] at here
    obtain ⟨old, read, same⟩ := List.mem_map.mp here
    obtain ⟨l, -, read⟩ := List.mem_filterMap.mp read
    rw [← same, (AddressSpace.stored_of_read? image.based_addressSpace read).1]
    apply AddressSpace.loaded_of_read? read
  · apply fits_of_mem_locations wf (new.sublist.subset here)

/-- The fields of references with new targets lie apart if those of the image do. -/
theorem pairwise_apart (new : image.Retargets kind references)
    (spaced : (image.locations kind).Pairwise fun l m => l + kind.fieldWidth image.width ≤ m) :
  (references.map (Prod.mk kind)).Pairwise fun e f =>
    (image.addressSpace.field e).Apart (image.addressSpace.field f)
  := by
  apply List.pairwise_map.mpr
  apply (List.pairwise_map.mp (spaced.sublist new.sublist)).imp
  intro r s before
  left
  apply before

end Retargets

/-- References of both kinds with new targets have fields apart from each other, if absolute
fields are left out by the scan and lie apart themselves. -/
theorem pairwise_apart_of_retargets (wf : image.WellFormed)
    (avoid : image.options.branches.avoidRelocations = true)
    (spaced : (image.locations .reloc).Pairwise fun l m => l + image.width.bytes ≤ m)
    (absolute : image.Retargets .reloc relocs) (relative : image.Retargets .rel32 rel32s) :
  (relocs.map (Prod.mk ReferenceKind.reloc)
      ++ rel32s.map (Prod.mk ReferenceKind.rel32)).Pairwise fun e f =>
    (image.addressSpace.field e).Apart (image.addressSpace.field f)
  := by
  apply List.pairwise_append.mpr
  use absolute.pairwise_apart spaced, relative.pairwise_apart image.pairwise_locations_rel32
  intro e he f hf
  obtain ⟨r, hr, rfl⟩ := List.mem_map.mp he
  obtain ⟨s, hs, rfl⟩ := List.mem_map.mp hf
  apply Region.Apart.symm
  apply apart_of_mem_locations wf avoid
  · apply relative.sublist.subset (List.mem_map_of_mem hs)
  · apply absolute.sublist.subset (List.mem_map_of_mem hr)

/-- References with new targets that are written in any order are read back. -/
theorem readAll_writeEach (wf : image.WellFormed)
    (avoid : image.options.branches.avoidRelocations = true)
    (spaced : (image.locations .reloc).Pairwise fun l m => l + image.width.bytes ≤ m)
    (absolute : image.Retargets .reloc relocs) (relative : image.Retargets .rel32 rel32s)
    {entries : List (ReferenceKind × Reference)}
    (order : (relocs.map (Prod.mk ReferenceKind.reloc)
      ++ rel32s.map (Prod.mk ReferenceKind.rel32)).Perm entries) :
  image.addressSpace.readAll .reloc (image.addressSpace.writeEach image.bytes entries)
      (relocs.map (·.location)) = relocs
    ∧ image.addressSpace.readAll .rel32 (image.addressSpace.writeEach image.bytes entries)
      (rel32s.map (·.location)) = rel32s
  := by
  have apart := order.pairwise (pairwise_apart_of_retargets wf avoid spaced absolute relative)
    Region.Apart.symm
  have storable : ∀ entry ∈ entries,
      image.addressSpace.Storable image.bytes.size entry.1 entry.2 := by
    intro entry h
    rcases List.mem_append.mp (order.mem_iff.mpr h) with h | h
    · obtain ⟨r, hr, rfl⟩ := List.mem_map.mp h
      apply absolute.storable wf hr
    · obtain ⟨r, hr, rfl⟩ := List.mem_map.mp h
      apply relative.storable wf hr
  have stored (entry : ReferenceKind × Reference) (h : entry ∈ entries) :=
    AddressSpace.read?_writeEach_of_mem image.based_addressSpace apart storable h
  constructor
  · apply AddressSpace.readAll_map_location
    intro r hr
    apply stored (.reloc, r)
    apply order.mem_iff.mp (List.mem_append_left _ (List.mem_map_of_mem hr))
  · apply AddressSpace.readAll_map_location
    intro r hr
    apply stored (.rel32, r)
    apply order.mem_iff.mp (List.mem_append_right _ (List.mem_map_of_mem hr))

/-- References of both kinds are given new targets and written into a copy of a parsed image,
those of one kind after those of the other.  If the scan leaves absolute fields out, and each
of these ends before the next one begins, then what is read back at the locations is what has
been written. -/
theorem readAll_writeAll {width : Width} {options : Options} {data : Bytes}
    (h : parse width options data = .ok image)
    (avoid : options.branches.avoidRelocations = true)
    (spaced : (image.locations .reloc).IsChain fun l m => l + width.bytes ≤ m)
    (absolute : image.Retargets .reloc relocs) (relative : image.Retargets .rel32 rel32s)
    {copy : Bytes}
    (written :
      copy = image.addressSpace.writeAll .rel32
          (image.addressSpace.writeAll .reloc image.bytes relocs) rel32s
        ∨ copy = image.addressSpace.writeAll .reloc
          (image.addressSpace.writeAll .rel32 image.bytes rel32s) relocs) :
  image.addressSpace.readAll .reloc copy (relocs.map (·.location)) = relocs
    ∧ image.addressSpace.readAll .rel32 copy (rel32s.map (·.location)) = rel32s
  := by
  have wf := wellFormed_of_parse h
  obtain rfl := width_of_parse h
  obtain rfl := options_of_parse h
  have apart := Locations.pairwise_of_isChain spaced
  rcases written with rfl | rfl
  · rw [AddressSpace.writeAll_writeAll]
    apply readAll_writeEach wf avoid apart absolute relative (List.Perm.refl _)
  · rw [AddressSpace.writeAll_writeAll]
    apply readAll_writeEach wf avoid apart absolute relative List.perm_append_comm

/-- The sample has one absolute field that holds a reference, and two relative ones.  They are
pointed to the second section, past its bytes in the file, and to places in both sections. -/
theorem readAll_writeAll_sample :
  sample.addressSpace.readAll .rel32
      (sample.addressSpace.writeAll .rel32
        (sample.addressSpace.writeAll .reloc sampleBytes [⟨0x13E, 0x402030⟩])
        [⟨0x139, 0x402000⟩, ⟨0x144, 0x401000⟩])
      [0x139, 0x144]
    = [⟨0x139, 0x402000⟩, ⟨0x144, 0x401000⟩]
  := by
  have apart : (sample.locations .reloc).IsChain fun l m => l + Width.bits32.bytes ≤ m := by
    rw [locations_reloc_sample]
    decide
  have absolute : sample.Retargets .reloc [⟨0x13E, 0x402030⟩] := by
    constructor
    · rw [references, locations_reloc_sample]
      decide +kernel
    · decide +kernel
  have relative : sample.Retargets .rel32 [⟨0x139, 0x402000⟩, ⟨0x144, 0x401000⟩] := by
    constructor
    · rw [references, locations_rel32_sample]
      decide +kernel
    · decide +kernel
  apply (readAll_writeAll parse_sampleBytes rfl apart absolute relative (Or.inl rfl)).2

end ImageRefs.Image
