import ImageRefs.Image.Session
import ImageRefs.Proofs.Image.Overlay
import ImageRefs.Proofs.Reference.Read
import ImageRefs.Proofs.Reference.Unchanged
import ImageRefs.Proofs.Reference.WriteEach
import ImageRefs.Proofs.Reloc.Table
import Mathlib.Data.List.Pairwise

/-!
# Patched images

New targets are written into absolute fields of a copy of an image, and the copy is parsed
again.  If the fields lie apart from the headers and from the base relocation table, then

* the copy is an image with the same sections and base (`Image.parse_of_patches`),
* it has the same base relocations (`Image.relocTable_patch`), and
* the references that are read from it are the old ones with the new targets, as far as
  these have valid RVAs, if the absolute fields do not overlap
  (`Image.references_patch`).

`Image.parse_writeAll_reloc` puts these together.
-/

namespace ImageRefs

namespace Reference

/-- The reference with the target that a list of references gives to its location, if it gives
one, cut off to what a field of the width holds. -/
def patchedBy (width : Width) (patches : List Reference) (r : Reference) : Reference :=
  match patches.find? (·.location = r.location) with
  | none => r
  | some p => ⟨r.location, width.truncate p.target⟩

variable {width : Width} {patches : List Reference} {r : Reference}

/-- A reference keeps its target if the list gives none to its location. -/
theorem patchedBy_of_forall_ne (h : ∀ p ∈ patches, p.location ≠ r.location) :
  r.patchedBy width patches = r
  := by
  have none : patches.find? (·.location = r.location) = none := by
    simpa using h
  rw [patchedBy, none]

/-- A reference gets the target that the list gives to its location, if the list gives it
once. -/
theorem patchedBy_of_mem (once : (patches.map (·.location)).Nodup) {p : Reference}
    (h : p ∈ patches) (here : p.location = r.location) :
  r.patchedBy width patches = ⟨r.location, width.truncate p.target⟩
  := by
  have some : (patches.find? (·.location = r.location)).isSome := by
    rw [List.find?_isSome]
    use p, h, decide_eq_true here
  obtain ⟨q, found⟩ := Option.isSome_iff_exists.mp some
  have there := List.find?_some found
  rw [decide_eq_true_iff] at there
  obtain rfl := List.inj_on_of_nodup_map once (List.mem_of_find?_eq_some found) h
    (there.trans here.symm)
  rw [patchedBy, found]

end Reference

/-! ### Absolute fields of a buffer -/

namespace AddressSpace

variable {a : AddressSpace} {data : Bytes} {locations : List Nat} {patches : List Reference}

/-- A list of references gives new targets to some of those that are read from absolute fields
at a list of locations of a buffer, at most one to each. -/
structure Patches (a : AddressSpace) (data : Bytes) (locations : List Nat)
    (patches : List Reference) : Prop where
  location : ∀ p ∈ patches, p.location ∈ (a.readAll .reloc data locations).map (·.location)
  once : (patches.map (·.location)).Nodup

/-- Each of the fields that get a new target is one of the list and holds a reference. -/
theorem Patches.exists_read? (new : a.Patches data locations patches) (based : a.Based)
    {p : Reference} (h : p ∈ patches) :
  p.location ∈ locations
    ∧ ∃ r, r.location = p.location ∧ a.read? .reloc data p.location = some r
  := by
  obtain ⟨r, hr, here⟩ := List.mem_map.mp (new.location p h)
  obtain ⟨l, hl, read⟩ := List.mem_filterMap.mp hr
  obtain rfl : l = p.location := (stored_of_read? based read).1.symm.trans here
  use hl, r, here

/-- Fields at different locations lie apart if no two fields overlap. -/
theorem apart_fieldAt_reloc (spaced : locations.Pairwise fun l m => l + a.width.bytes ≤ m)
    {l m : Nat} (hl : l ∈ locations) (hm : m ∈ locations) (ne : l ≠ m) :
  (a.fieldAt .reloc l).Apart (a.fieldAt .reloc m)
  := by
  have symm : Std.Symm fun l m => (a.fieldAt .reloc l).Apart (a.fieldAt .reloc m) :=
    ⟨fun _ _ => Region.Apart.symm⟩
  have apart : locations.Pairwise fun l m => (a.fieldAt .reloc l).Apart (a.fieldAt .reloc m) :=
    spaced.imp Or.inl
  apply apart.forall hl hm ne

section Patches

variable (new : a.Patches data locations patches) (based : a.Based)
  (spaced : locations.Pairwise fun l m => l + a.width.bytes ≤ m)
include new based spaced

/-- A field that gets a new target holds its low bytes. -/
theorem Patches.stored_of_mem (fits : ∀ l ∈ locations, l + a.width.bytes ≤ data.size)
    {p : Reference} (h : p ∈ patches) :
  (a.writeAll .reloc data patches).read? a.width.bytes p.location
    = some (a.width.truncate p.target)
  := by
  have apart : (patches.map (Prod.mk ReferenceKind.reloc)).Pairwise fun e f =>
      (a.field e).Apart (a.field f) := by
    apply List.pairwise_map.mpr
    apply (List.pairwise_map.mp new.once).imp_of_mem
    intro p q hp hq ne
    apply apart_fieldAt_reloc spaced (new.exists_read? based hp).1 (new.exists_read? based hq).1 ne
  rw [writeAll_eq_writeEach]
  apply stored_writeEach_of_mem apart _ (List.mem_map_of_mem h) rfl
  rw [List.forall_mem_map]
  intro q hq
  apply fits _ (new.exists_read? based hq).1

/-- A field that gets no new target holds what it did. -/
theorem Patches.stored_of_forall_ne {l : Nat} (hl : l ∈ locations)
    (other : ∀ p ∈ patches, p.location ≠ l) :
  (a.writeAll .reloc data patches).read? a.width.bytes l = data.read? a.width.bytes l
  := by
  rw [writeAll_eq_writeEach]
  apply stored_writeEach_of_apart
  rw [List.forall_mem_map]
  intro p hp
  apply apart_fieldAt_reloc spaced (new.exists_read? based hp).1 hl (other p hp)

/-- After writing, a field holds the reference with its new target, if there is one and it has a
valid RVA. -/
theorem Patches.read?_writeAll (fits : ∀ l ∈ locations, l + a.width.bytes ≤ data.size)
    {l : Nat} (hl : l ∈ locations) :
  a.read? .reloc (a.writeAll .reloc data patches) l
    = ((a.read? .reloc data l).map (Reference.patchedBy a.width patches)).filter a.hasTarget
  := by
  by_cases other : ∀ p ∈ patches, p.location ≠ l
  -- A field without a new target keeps its word, so one that a reader skips is skipped again.
  · have same : a.read? .reloc (a.writeAll .reloc data patches) l = a.read? .reloc data l := by
      rw [read?_reloc_eq, read?_reloc_eq, new.stored_of_forall_ne based spaced hl other]
    rw [same]
    cases read : a.read? .reloc data l with
    | none => rfl
    | some r =>
      have here : r.location = l := (stored_of_read? based read).1
      rw [Option.map_some, Reference.patchedBy_of_forall_ne (by rwa [here]), Option.filter_some,
        if_pos (hasTarget_of_read? read)]
  -- The old reference only tells that the field is read; what is read is the new word.
  · push Not at other
    obtain ⟨p, hp, rfl⟩ := other
    obtain ⟨-, r, here, read⟩ := new.exists_read? based hp
    rw [read?_reloc_eq, new.stored_of_mem based spaced fits hp, read, Option.map_some,
      Option.map_some, Reference.patchedBy_of_mem new.once hp here.symm, here]

/-- After writing, the references with their new targets are read from any of the fields, without
those whose target has no valid RVA. -/
theorem Patches.readAll_reloc (fits : ∀ l ∈ locations, l + a.width.bytes ≤ data.size)
    {window : List Nat} (inside : ∀ l ∈ window, l ∈ locations) :
  a.readAll .reloc (a.writeAll .reloc data patches) window
    = ((a.readAll .reloc data window).map (Reference.patchedBy a.width patches)).filter
        a.hasTarget
  := by
  have each : ∀ l ∈ window, a.read? .reloc (a.writeAll .reloc data patches) l
      = ((a.read? .reloc data l).map (Reference.patchedBy a.width patches)).filter a.hasTarget :=
    fun l hl => new.read?_writeAll based spaced fits (inside l hl)
  rw [readAll, readAll, List.filterMap_congr each, List.map_filterMap, List.filter_filterMap]

end Patches

end AddressSpace

namespace Image

variable {width : Width} {options : Options} {data : Bytes} {image : Image}
  {patches : List Reference}

/-- A list of references gives new targets to some of those that are read from the absolute
fields of an image, at most one to each. -/
structure Patches (image : Image) (patches : List Reference) : Prop where
  location : ∀ p ∈ patches,
    p.location ∈ (image.references .reloc 0 (space32 - 1)).map (·.location)
  once : (patches.map (·.location)).Nodup

/-- The new targets are given to fields that hold references. -/
theorem Patches.fields (new : image.Patches patches) :
  image.addressSpace.Patches image.bytes (image.locations .reloc) patches
  := by
  constructor
  · intro p hp
    obtain ⟨r, hr, here⟩ := List.mem_map.mp (new.location p hp)
    obtain ⟨l, hl, read⟩ := List.mem_filterMap.mp hr
    apply List.mem_map.mpr
    use r, List.mem_filterMap.mpr ⟨l, (Locations.within_sublist _ _ _).subset hl, read⟩, here
  · apply new.once

/-- The fields that get new targets lie inside the image. -/
theorem Patches.inside (new : image.Patches patches) :
  ∀ p ∈ patches, p.location + image.width.bytes ≤ image.size
  := by
  intro p hp
  apply fits_of_mem_reloc (new.fields.exists_read? image.based_addressSpace hp).1

/-- The absolute fields of a list of references lie apart from the headers and from the base
relocation table of an image. -/
structure Spare (image : Image) (headersEnd : Nat) (patches : List Reference) : Prop where
  headers : ∀ p ∈ patches, Region.Apart ⟨p.location, image.width.bytes⟩ ⟨0, headersEnd⟩
  relocations : ∀ p ∈ patches, ∀ directory offset, image.relocationDirectory = some directory →
    image.loadMap.rvaToOffset? directory.rva = some offset →
    Region.Apart ⟨p.location, image.width.bytes⟩ ⟨offset, directory.size⟩

/-- The image with new targets written into its absolute fields. -/
def patch (image : Image) (patches : List Reference) : Image :=
  { image with bytes := image.addressSpace.writeAll .reloc image.bytes patches }

@[simp]
theorem size_patch (image : Image) (patches : List Reference) :
  (image.patch patches).size = image.size
  := by
  rw [size, patch, AddressSpace.writeAll_eq_writeEach]
  apply AddressSpace.size_writeEach

/-- New targets outside of the base relocation table leave its blocks as they are. -/
theorem relocWalk_patch {headersEnd : Nat} (spare : image.Spare headersEnd patches) :
  (image.patch patches).relocWalk = image.relocWalk
  := by
  cases present : image.relocationDirectory with
  | none => simp only [relocWalk, patch, present]
  | some directory =>
    cases loaded : image.loadMap.rvaToOffset? directory.rva with
    | none => simp only [relocWalk, patch, present, loaded]
    | some offset =>
      have apart : ∀ entry ∈ patches.map (Prod.mk ReferenceKind.reloc),
          (image.addressSpace.field entry).Apart ⟨offset, directory.size⟩ :=
        List.forall_mem_map.mpr fun p hp => spare.relocations p hp _ _ present loaded
      have present' : (image.patch patches).relocationDirectory = some directory := present
      rw [relocWalk_eq present loaded, relocWalk_eq present' loaded, RelocWalk.ofRegion,
        RelocWalk.ofRegion, patch, AddressSpace.writeAll_eq_writeEach,
        AddressSpace.slice?_writeEach_of_apart apart]

/-- New targets outside of the base relocation table leave the base relocations as they are. -/
theorem relocTable_patch {headersEnd : Nat} (spare : image.Spare headersEnd patches) :
  (image.patch patches).relocTable = image.relocTable
  := by
  have walk := relocWalk_patch spare
  have locations : (image.patch patches).locations .reloc = image.locations .reloc := by
    have width : (image.patch patches).width = image.width := rfl
    have loadMap : (image.patch patches).loadMap = image.loadMap := rfl
    apply locations_reloc_congr width loadMap (image.size_patch patches)
    intro rva
    rw [walk]
  calc (image.patch patches).relocTable
    _ = ⟨(image.patch patches).relocWalk.blocks, (image.patch patches).locations .reloc,
          (image.patch patches).relocWalk.complete⟩ := rfl
    _ = ⟨image.relocWalk.blocks, image.locations .reloc, image.relocWalk.complete⟩ := by
      rw [walk, locations]
    _ = image.relocTable := rfl

/-- Writing new targets outside of the beginning of a file keeps it. -/
theorem agreeBelow_writeAll {bound : Nat} (fits : bound ≤ data.size)
    (apart : ∀ p ∈ patches, Region.Apart ⟨p.location, image.width.bytes⟩ ⟨0, bound⟩) :
  Bytes.AgreeBelow bound data (image.addressSpace.writeAll .reloc data patches)
  := by
  rw [AddressSpace.writeAll_eq_writeEach]
  use fits, by rwa [AddressSpace.size_writeEach]
  intro i low
  symm
  apply AddressSpace.getElem?_writeEach_of_apart (List.forall_mem_map.mpr apart) (Nat.zero_le i)
  rwa [Nat.zero_add]

/-- Writing new targets inside the beginning of a file is writing them into the beginning. -/
theorem extract_writeAll {bound : Nat} (fits : bound ≤ data.size)
    (inside : ∀ p ∈ patches, p.location + image.width.bytes ≤ bound) :
  (image.addressSpace.writeAll .reloc data patches).extract 0 bound
    = image.addressSpace.writeAll .reloc (data.extract 0 bound) patches
  := by
  rw [AddressSpace.writeAll_eq_writeEach, AddressSpace.writeAll_eq_writeEach]
  apply AddressSpace.extract_writeEach (List.forall_mem_map.mpr inside) fits

/-- A copy of a file into which new targets are written, but not into its headers, holds the image
with the new targets. -/
theorem parse_of_patches (h : parse width options data = .ok image)
    (inside : ∀ p ∈ patches, p.location + image.width.bytes ≤ image.size)
    (headers : ∀ p ∈ patches, Region.Apart ⟨p.location, image.width.bytes⟩ ⟨0, data.headersEnd⟩) :
  parse width options (image.addressSpace.writeAll .reloc data patches)
    = .ok (image.patch patches)
  := by
  have hsize := size_of_parse h
  obtain ⟨hbytes, fits⟩ := bytes_of_parse h
  rw [← hsize] at hbytes fits
  have agree : Bytes.AgreeBelow data.headersEnd data
      (image.addressSpace.writeAll .reloc data patches) := by
    apply agreeBelow_writeAll _ headers
    omega
  have same : (image.addressSpace.writeAll .reloc data patches).size = data.size := by
    rw [AddressSpace.writeAll_eq_writeEach, AddressSpace.size_writeEach]
  rw [parse_of_agreeBelow_headersEnd h agree, extract_writeAll fits inside, ← hbytes]
  · rfl
  · rwa [same]
  · rw [same]
    apply (parse_eq_ok_iff.mp h).1

/-- The references that are read from an image with new targets are the old ones with the new
targets, without those whose target has no valid RVA, if no two absolute fields overlap. -/
theorem references_patch {headersEnd : Nat} (new : image.Patches patches)
    (spare : image.Spare headersEnd patches)
    (spaced : (image.locations .reloc).Pairwise fun l m => l + image.width.bytes ≤ m)
    (low high : Nat) :
  (image.patch patches).references .reloc low high
    = ((image.references .reloc low high).map (Reference.patchedBy image.width patches)).filter
        image.addressSpace.hasTarget
  := by
  have window := (Locations.within_sublist low high (image.locations .reloc)).subset
  calc (image.patch patches).references .reloc low high
    _ = image.addressSpace.readAll .reloc
          (image.addressSpace.writeAll .reloc image.bytes patches)
          (Locations.within low high ((image.patch patches).locations .reloc)) := rfl
    _ = image.addressSpace.readAll .reloc
          (image.addressSpace.writeAll .reloc image.bytes patches)
          (Locations.within low high (image.locations .reloc)) := by
      rw [locations, relocTable_patch spare, locations]
    _ = _ := new.fields.readAll_reloc image.based_addressSpace spaced
      (fun _ => fits_of_mem_reloc) window

/-- The state of the base relocations of an image tells whether their table could be read to its
end. -/
theorem state_reloc_relocTable (image : Image) :
  (Session.start image).relocTable.2.state .reloc
    = if image.relocTable.complete then .parsed else .parsedPartial
  := rfl

/-- New targets are written for some of the absolute references of an image into a copy of its
file, and the copy is parsed again.  If no field that is written meets the headers or the base
relocation table, then the copy holds an image with the same size, sections and base, the same
base relocations, and the same state of these.  If moreover no two absolute fields overlap, then
the references that are read are the old ones, each with the low bytes of its new target if it has
one, without those whose target has no valid RVA. -/
theorem parse_writeAll_reloc (h : parse width options data = .ok image)
    (new : image.Patches patches) (spare : image.Spare data.headersEnd patches) :
  ∃ patched, parse width options (image.addressSpace.writeAll .reloc data patches) = .ok patched
    ∧ patched.size = image.size
    ∧ patched.sections = image.sections
    ∧ patched.imageBase = image.imageBase
    ∧ patched.relocTable.blocks = image.relocTable.blocks
    ∧ patched.locations .reloc = image.locations .reloc
    ∧ (Session.start patched).relocTable.2.state .reloc
      = (Session.start image).relocTable.2.state .reloc
    ∧ ((image.locations .reloc).IsChain (fun l m => l + width.bytes ≤ m) →
      patched.references .reloc 0 (space32 - 1)
        = ((image.references .reloc 0 (space32 - 1)).map
            (Reference.patchedBy width patches)).filter image.addressSpace.hasTarget)
  := by
  obtain rfl := width_of_parse h
  have table := relocTable_patch spare
  use image.patch patches
  and_intros
  · apply parse_of_patches h new.inside spare.headers
  · apply image.size_patch
  · rfl
  · rfl
  · rw [table]
  · rw [locations, table, locations]
  · rw [state_reloc_relocTable, state_reloc_relocTable, table]
  · intro chain
    apply references_patch new spare (Locations.pairwise_of_isChain chain)

/-- The sample has one absolute reference.  Of a new target with more than 32 bits the low ones
are read back. -/
theorem parse_writeAll_reloc_sample :
  ∃ patched, parse .bits32 {}
      (sample.addressSpace.writeAll .reloc sampleBytes [⟨0x13E, 0x100402030⟩]) = .ok patched
    ∧ patched.references .reloc 0 (space32 - 1) = [⟨0x13E, 0x402030⟩]
  := by
  have old : sample.references .reloc 0 (space32 - 1) = [⟨0x13E, 0x401000⟩] := by
    rw [references, locations_reloc_sample]
    decide +kernel
  have new : sample.Patches [⟨0x13E, 0x100402030⟩] := by
    constructor
    · rw [old]
      decide
    · decide
  have spare : sample.Spare sampleBytes.headersEnd [⟨0x13E, 0x100402030⟩] := by
    constructor
    · rw [List.forall_mem_singleton]
      right
      decide +kernel
    · rw [List.forall_mem_singleton]
      intro directory offset present loaded
      cases present
      have here : sample.loadMap.rvaToOffset? 0x1014 = some 0x14C := by decide +kernel
      cases here.symm.trans loaded
      left
      decide
  have chain : (sample.locations .reloc).IsChain fun l m => l + Width.bits32.bytes ≤ m := by
    rw [locations_reloc_sample]
    decide
  obtain ⟨patched, parsed, -, -, -, -, -, -, read⟩ :=
    parse_writeAll_reloc parse_sampleBytes new spare
  use patched, parsed
  rw [read chain, old]
  decide +kernel

end Image

end ImageRefs
