import ImageRefs.Proofs.Reference.Apart
import ImageRefs.Proofs.Reference.Read
import ImageRefs.Proofs.Reference.Unchanged

/-!
# Relative references

A scan accepts a branch after it has judged the target of its displacement, and a reader
judges the target in a relative field once more.  The scan may ask for a target in the section
of the branch, the reader asks for a valid RVA.

* What a scan accepts in a section of a parsed image, a reader reads
  (`Image.exists_read?_of_accepts`).
* So every relative field of a parsed image holds a reference, and its target is the address
  that the processor computes (`Image.references_rel32`).
-/

namespace ImageRefs

/-- The address at a distance from the end of a field is the address of the field plus the
width of a displacement and the distance, modulo the number of addresses. -/
theorem AddressSpace.rvaToAddress_of_distance {a : AddressSpace} {fieldRva rva : Nat}
    {displacement : Int}
    (target : (rva : Int) = fieldRva + displacementWidth + displacement) :
  (a.rvaToAddress rva : Int)
    = (a.rvaToAddress fieldRva + displacementWidth + displacement) % a.width.modulus
  := by
  rw [rvaToAddress, rvaToAddress, Width.truncate, Width.truncate, Int.natCast_emod,
    Int.natCast_emod, Int.add_assoc, Int.emod_add_emod]
  congr 1
  omega

namespace Image

variable {image : Image} {s : Section} {c : Candidate}

/-- The RVAs of a section are valid in an image that maps it. -/
theorem validRva_of_containsRva (mapped : image.loadMap = ⟨image.sections.map Section.mapping⟩)
    (hs : s ∈ image.sections) {rva : Nat} (h : s.containsRva rva = true) :
  image.loadMap.validRva rva = true
  := by
  rw [mapped]
  apply List.any_eq_true.mpr
  use s.mapping, List.mem_map_of_mem hs
  rw [s.coversRva_mapping, h]

/-- A branch that is accepted in a section has a reference in its displacement, also if it has
been accepted only because its target lies in the section. -/
theorem exists_read?_of_accepts
    (mapped : image.loadMap = ⟨image.sections.map Section.mapping⟩) (hs : s ∈ image.sections)
    (h : image.accepts s c = true) :
  ∃ r, image.addressSpace.read? .rel32 image.bytes c.location = some r
  := by
  obtain ⟨rva, stored, judged⟩ := accepts_iff.mp h
  have valid : image.loadMap.validRva rva = true := by
    split at judged
    · apply judged
    · apply validRva_of_containsRva mapped hs judged
  use ⟨c.location, image.addressSpace.rvaToAddress rva⟩
  apply AddressSpace.read?_rel32_eq_some_iff.mpr
  use rva, AddressSpace.storedTarget?_eq_some_iff.mpr stored, valid

/-- The branches that the plain scan finds in a section are accepted there. -/
theorem accepts_of_mem_plainBranches (h : c ∈ image.plainBranches s) :
  image.accepts s c = true
  := by
  obtain ⟨-, -, -, -, accepted⟩ := Finder.of_mem_walk h
  apply accepts_iff.mpr (of_decide_eq_true accepted).2

/-- Every relative field of a parsed image holds a reference, and reading a window of the image
gives the references in all relative fields of the window, in ascending order.  The target of
each is the absolute address of the field plus its width and the displacement stored in it,
modulo the number of addresses, and the RVA of the target is valid.  Wherever a scan of a code
section accepts a branch, kept or not, a reader finds a reference. -/
theorem references_rel32 {width : Width} {options : Options} {data : Bytes}
    (h : parse width options data = .ok image) (low high : Nat) :
  (image.references .rel32 low high).map (·.location)
      = (image.locations .rel32).filter (fun l => decide (low ≤ l ∧ l < high))
    ∧ ((image.references .rel32 low high).map (·.location)).Pairwise (· < ·)
    ∧ (∀ r ∈ image.references .rel32 low high, ∃ fieldRva word targetRva,
        image.loadMap.offsetToRva? r.location = some fieldRva
        ∧ image.bytes.read? displacementWidth r.location = some word
        ∧ (r.target : Int)
          = (image.addressSpace.rvaToAddress fieldRva + displacementWidth + signed32 word)
            % width.modulus
        ∧ image.addressSpace.addressToRva? r.target = some targetRva
        ∧ image.loadMap.validRva targetRva = true)
    ∧ ∀ s ∈ image.codeSections, ∀ c, image.accepts s c = true →
      ∃ r, image.addressSpace.read? .rel32 image.bytes c.location = some r
  := by
  have wf := wellFormed_of_parse h
  have mapped := loadMap_of_parse h
  have based := image.based_addressSpace
  obtain rfl := width_of_parse h
  have ascending : (image.locations .rel32).Pairwise (· < ·) := by
    apply image.pairwise_locations_rel32.imp
    intro l m before
    apply Nat.lt_of_lt_of_le _ before
    apply Nat.lt_add_of_pos_right (by decide)
  have window := Locations.within_eq_filter (ascending.imp Nat.le_of_lt) low high
  have each : ∀ l ∈ (image.locations .rel32).filter (fun l => decide (low ≤ l ∧ l < high)),
      ∃ r, image.addressSpace.read? .rel32 image.bytes l = some r := by
    intro l hl
    obtain ⟨s, hs, c, hc, rfl⟩ := exists_of_mem_rel32 wf (List.mem_filter.mp hl).1
    apply exists_read?_of_accepts mapped (List.mem_filter.mp hs).1
      (accepts_of_mem_plainBranches hc)
  have here : (image.references .rel32 low high).map (·.location)
      = (image.locations .rel32).filter (fun l => decide (low ≤ l ∧ l < high)) := by
    rw [references, window, AddressSpace.map_location_readAll based each]
  and_intros
  · apply here
  · rw [here]
    apply ascending.filter
  · intro r hr
    obtain ⟨l, -, hl⟩ := List.mem_filterMap.mp hr
    obtain ⟨rva, stored, valid, rfl⟩ := AddressSpace.read?_rel32_eq_some_iff.mp hl
    obtain ⟨bound, fieldRva, word, loaded, held, target⟩ :=
      AddressSpace.storedTarget?_eq_some_iff.mp stored
    use fieldRva, word, rva, loaded, held, AddressSpace.rvaToAddress_of_distance target,
      AddressSpace.addressToRva?_rvaToAddress based bound, valid
  · intro s hs c accepted
    apply exists_read?_of_accepts mapped (List.mem_filter.mp hs).1 accepted

/-- In the sample a conditional branch is accepted because it stays in its section.  It goes six
bytes back from its end. -/
theorem references_rel32_sample :
  (sample.references .rel32 0x13A 0x145).map (·.location) = [0x144]
    ∧ ∀ r ∈ sample.references .rel32 0x13A 0x145, r.target = 0x40100A
  := by
  obtain ⟨here, -, targets, -⟩ := references_rel32 parse_sampleBytes 0x13A 0x145
  have window : (sample.references .rel32 0x13A 0x145).map (·.location) = [0x144] := by
    rw [here, locations_rel32_sample]
    rfl
  use window
  intro r hr
  obtain ⟨fieldRva, word, -, loaded, held, target, -⟩ := targets r hr
  have location : r.location = 0x144 := by
    apply List.mem_singleton.mp
    rw [← window]
    apply List.mem_map_of_mem hr
  rw [location] at loaded held
  have displacement : sample.bytes.read? displacementWidth 0x144 = some 0xFFFFFFFA := by
    decide +kernel
  have back : ((sample.addressSpace.rvaToAddress 0x100C : Int) + displacementWidth
      + signed32 0xFFFFFFFA) % Width.bits32.modulus = (0x40100A : Nat) := by
    decide +kernel
  obtain rfl : 0x100C = fieldRva := Option.some.inj loaded
  obtain rfl := Option.some.inj (displacement.symm.trans held)
  apply Int.ofNat.inj (target.trans back)

end Image

end ImageRefs
