import ImageRefs.Image.Basic
import ImageRefs.Proofs.Section.Table
import Mathlib.Control.Monad.Basic
import Mathlib.Tactic.Use

/-!
# Parsed images

`Image.parse_eq_ok_iff` says what it takes for bytes to be an image and which image they are.
The later facts about images rest on `Image.wellFormed_of_parse`: offsets in a parsed image
have 32 bits, and it holds the bytes of all of its sections.
-/

namespace ImageRefs

namespace Image

/-- Bytes are an image of a width exactly if they are not too many, the headers are there and
are those of the width, and the sections have a layout and a load map. -/
theorem parse_eq_ok_iff {width : Width} {options : Options} {data : Bytes} {image : Image} :
  parse width options data = .ok image
    ↔ data.size ≤ options.imageSizeLimit ∧ ∃ dos nt sections layout loadMap,
      DosHeader.read data = .ok dos
      ∧ NtHeaders.read data dos.ntOffset = .ok nt
      ∧ nt.optional.width = width
      ∧ Section.readTable data nt.sectionTableOffset nt.coff.sectionCount = .ok sections
      ∧ Layout.ofSections sections data.size nt.optional.sizeOfImage = .ok layout
      ∧ LoadMap.ofMappings layout.mappings = .ok loadMap
      ∧ image = {
        width := width
        options := options
        bytes := data.extract 0
          (max (nt.sectionTableOffset + nt.coff.sectionCount * sectionHeaderSize) layout.bound)
        sections := sections
        imageBase := nt.optional.imageBase
        relocationDirectory := nt.directory? DataDirectory.baseRelocationIndex
        loadMap := loadMap
      }
  := by
  constructor
  · intro h
    rw [parse] at h
    split at h
    · cases h
    · next small =>
      use Nat.le_of_not_lt small
      obtain ⟨dos, hdos, h⟩ := bind_eq_ok_iff.mp h
      obtain ⟨nt, hnt, h⟩ := bind_eq_ok_iff.mp h
      split at h
      · next magic =>
        obtain ⟨sections, hsections, h⟩ := bind_eq_ok_iff.mp h
        obtain ⟨layout, hlayout, h⟩ := bind_eq_ok_iff.mp h
        obtain ⟨loadMap, hloadMap, h⟩ := bind_eq_ok_iff.mp h
        use dos, nt, sections, layout, loadMap, hdos, hnt, magic, hsections, hlayout,
          mapError_eq_ok_iff.mp hloadMap, (Except.ok.inj h).symm
      · cases h
  · rintro ⟨small, dos, nt, sections, layout, loadMap, hdos, hnt, magic, hsections, hlayout,
      hloadMap, rfl⟩
    rw [parse, if_neg (Nat.not_lt.mpr small)]
    apply bind_eq_ok_iff.mpr
    use dos, hdos
    apply bind_eq_ok_iff.mpr
    use nt, hnt
    rw [if_pos magic]
    apply bind_eq_ok_iff.mpr
    use sections, hsections
    apply bind_eq_ok_iff.mpr
    use layout, hlayout
    apply bind_eq_ok_iff.mpr
    use loadMap, mapError_eq_ok_iff.mpr hloadMap

/-- Why bytes are no image of a width: they are too many, a header cannot be read, the width is
the other one, or the section table is cut off or names a section outside of the image. -/
theorem of_parse_eq_error {width : Width} {options : Options} {data : Bytes}
    {error : ImageError} (h : parse width options data = .error error) :
  error = .tooLarge data.size options.imageSizeLimit
    ∨ DosHeader.read data = .error error
    ∨ ∃ dos, DosHeader.read data = .ok dos
      ∧ (NtHeaders.read data dos.ntOffset = .error error
        ∨ ∃ nt, NtHeaders.read data dos.ntOffset = .ok nt
          ∧ (nt.optional.width ≠ width ∧ error = .wrongMagic nt.optional.width.magic
            ∨ nt.optional.width = width
              ∧ (error.isDamage = true ∨ error.isMisplaced = true)))
  := by
  rw [parse] at h
  split at h
  · cases h
    left
    rfl
  next small =>
  right
  rcases bind_eq_error_iff.mp h with h | ⟨dos, hdos, h⟩
  · left
    apply h
  right
  use dos, hdos
  rcases bind_eq_error_iff.mp h with h | ⟨nt, hnt, h⟩
  · left
    apply h
  right
  use nt, hnt
  split at h
  · next same =>
    right
    use same
    rcases bind_eq_error_iff.mp h with h | ⟨sections, hsections, h⟩
    · left
      apply Section.isDamage_of_readTable h
    right
    rcases bind_eq_error_iff.mp h with h | ⟨layout, hlayout, h⟩
    · apply Layout.isMisplaced_of_ofSections h
    -- The load map cannot fail here: the sections have been judged, and all offsets and RVAs
    -- have 32 bits.
    have offsets := options.lt_space32 (Nat.le_of_not_lt small)
    have rvas := OptionalHeader.sizeOfImage_lt (NtHeaders.read_eq_ok_iff.mp hnt).2.2.1
    rw [Layout.ofMappings_of_ofSections hlayout offsets rvas] at h
    cases h
  · next other =>
    cases h
    left
    use other

/-- What parsing reports when it fails: the size of the image, a signature, the magic number,
damaged headers or a misplaced section. -/
theorem reported_of_parse {width : Width} {options : Options} {data : Bytes}
    {error : ImageError} (h : parse width options data = .error error) :
  error = .tooLarge data.size options.imageSizeLimit ∨ error = .dosSignature
    ∨ error = .peSignature ∨ (∃ magic, error = .wrongMagic magic)
    ∨ error.isDamage = true ∨ error.isMisplaced = true
  := by
  rcases of_parse_eq_error h with large | h | ⟨dos, -, h | ⟨nt, -, ⟨-, other⟩ | ⟨-, h⟩⟩⟩
  · simp only [large, true_or]
  · rcases DosHeader.of_read_eq_error h with damage | signature
    · simp only [damage, true_or, or_true]
    · simp only [signature, true_or, or_true]
  · rcases NtHeaders.of_read_eq_error h with damage | ⟨signature, -⟩ | ⟨magic, -, -, unknown⟩
    · simp only [damage, true_or, or_true]
    · simp only [signature, true_or, or_true]
    · simp only [unknown, ImageError.wrongMagic.injEq, exists_eq', true_or, or_true]
  · simp only [other, ImageError.wrongMagic.injEq, exists_eq', true_or, or_true]
  · simp only [h, or_true]

/-- No sum of offsets stops the readers when they read an image. -/
theorem parse_ne_overflow {width : Width} {options : Options} {data : Bytes} :
  parse width options data ≠ .error .overflow
  := by
  intro h
  rcases reported_of_parse h with h | h | h | ⟨_, h⟩ | h | h <;> cases h

theorem width_of_parse {width : Width} {options : Options} {data : Bytes} {image : Image}
    (h : parse width options data = .ok image) :
  image.width = width
  := by
  obtain ⟨-, _, _, _, _, _, -, -, -, -, -, -, rfl⟩ := parse_eq_ok_iff.mp h
  rfl

theorem options_of_parse {width : Width} {options : Options} {data : Bytes} {image : Image}
    (h : parse width options data = .ok image) :
  image.options = options
  := by
  obtain ⟨-, _, _, _, _, _, -, -, -, -, -, -, rfl⟩ := parse_eq_ok_iff.mp h
  rfl

/-- The load map of a parsed image has the mapping of each of its sections. -/
theorem loadMap_of_parse {width : Width} {options : Options} {data : Bytes} {image : Image}
    (h : parse width options data = .ok image) :
  image.loadMap = ⟨image.sections.map Section.mapping⟩
  := by
  obtain ⟨-, _, _, _, _, _, -, -, -, -, hlayout, hloadMap, rfl⟩ := parse_eq_ok_iff.mp h
  obtain ⟨-, rfl⟩ := Layout.ofSections_eq_ok_iff.mp hlayout
  obtain ⟨-, rfl⟩ := LoadMap.ofMappings_eq_ok_iff.mp hloadMap
  rfl

/-- What parsing guarantees about the bytes of an image. -/
structure WellFormed (image : Image) : Prop where
  /-- Offsets in the image have 32 bits. -/
  size_lt : image.bytes.size < space32
  /-- The image holds the bytes of its sections. -/
  rawEnd_le : ∀ s ∈ image.sections, s.rawEnd ≤ image.bytes.size

theorem wellFormed_of_parse {width : Width} {options : Options} {data : Bytes} {image : Image}
    (h : parse width options data = .ok image) :
  image.WellFormed
  := by
  obtain ⟨small, _, nt, sections, layout, _, -, -, -, -, hlayout, -, rfl⟩ :=
    parse_eq_ok_iff.mp h
  obtain ⟨inside, rfl⟩ := Layout.ofSections_eq_ok_iff.mp hlayout
  constructor
  · have offsets := options.lt_space32 small
    simp only [Array.size_extract]
    omega
  · intro s hs
    have bound : s.rawEnd ≤ Layout.boundOf sections := Layout.rawEnd_le_boundOf hs
    have fits := (inside s hs).1
    simp only [Array.size_extract]
    omega

/-! ### A small image -/

/-- The sections of `sampleBytes`: both hold code, and the second begins inside the first and
is filled with zeros beyond its bytes. -/
def sampleSections : List Section := [
  ⟨[0x2E, 0x74, 0x65, 0x78, 0x74, 0, 0, 0], 0x28, 0x1000, 0x28, 0x138, 0x20000020⟩,
  ⟨[0x2E, 0x68, 0x6F, 0x74, 0, 0, 0, 0], 0x40, 0x2000, 0x20, 0x140, 0x20000020⟩]

/-- The bytes of a section header. -/
def sampleHeader (s : Section) : List UInt8 :=
  s.rawName ++ toLE 4 s.virtualSize ++ toLE 4 s.virtualAddress ++ toLE 4 s.rawSize
    ++ toLE 4 s.rawOffset ++ toLE 12 0 ++ toLE 4 s.characteristics

/-- The bytes from the offset `0x138` on: a call, an absolute field, a conditional branch,
an absolute field whose address lies outside the image, the base relocation table, and a
call that is cut off. -/
def sampleCode : List UInt8 :=
  [0xE8, 0, 0, 0, 0, 0x90] ++ toLE 4 0x401000 ++ [0x0F, 0x84] ++ toLE 4 0xFFFFFFFA
    ++ toLE 4 0x500000
    ++ toLE 4 0x1000 ++ toLE 4 0x10
    ++ toLE 2 0x3006 ++ toLE 2 0x3010 ++ toLE 2 0 ++ toLE 2 0x3006
    ++ [0xE8, 0, 0, 0]

/-- The bytes of a small 32-bit image. -/
def sampleBytes : Bytes :=
  (toLE 0x3C dosSignature ++ toLE 4 0x40 ++ peSignature
    ++ toLE 2 0x14C ++ toLE 2 2 ++ toLE 12 0 ++ toLE 2 0x90 ++ toLE 2 0
    ++ toLE 28 Width.bits32.magic ++ toLE 28 0x400000 ++ toLE 36 0x3000 ++ toLE 4 6
    ++ toLE 40 0 ++ toLE 4 0x1014 ++ toLE 4 0x10
    ++ sampleSections.flatMap sampleHeader ++ sampleCode).toArray

/-- The image that `sampleBytes` holds. -/
def sample : Image where
  width := .bits32
  options := {}
  bytes := sampleBytes
  sections := sampleSections
  imageBase := 0x400000
  relocationDirectory := some ⟨0x1014, 0x10⟩
  loadMap := ⟨sampleSections.map Section.mapping⟩

theorem parse_sampleBytes :
  parse .bits32 {} sampleBytes = .ok sample
  := by
  apply parse_eq_ok_iff.mpr
  constructor
  · decide +kernel
  · use ⟨dosSignature, 0x40⟩, ⟨⟨.i386, 2, 0, 0x90, 0⟩,
      ⟨.bits32, 0, 0x400000, 0, 0, 0x3000, 0, 6⟩,
      [⟨0, 0⟩, ⟨0, 0⟩, ⟨0, 0⟩, ⟨0, 0⟩, ⟨0, 0⟩, ⟨0x1014, 0x10⟩], 0xE8⟩,
      sampleSections, ⟨sampleSections.map Section.mapping, 0x160⟩,
      ⟨sampleSections.map Section.mapping⟩
    and_intros
    · decide +kernel
    · decide +kernel
    · rfl
    · decide +kernel
    · decide +kernel
    · decide +kernel
    · rw [Array.extract_eq_self_of_le (by decide +kernel)]
      rfl

end Image

end ImageRefs
