import ImageRefs.Proofs.Image.Parsed

/-!
# The grammar of images

The fields that decide whether bytes are an image are read at their places in the file, and
`IsImage` states the conditions on them.  Bytes can be parsed exactly if they meet these
conditions (`Image.exists_parse_iff`).
-/

namespace ImageRefs

namespace Bytes

/-- Where the signature `PE` is expected. -/
def ntOffset (data : Bytes) : Nat := field data.toList 0x3C 4

/-- The number of section headers. -/
def sectionCount (data : Bytes) : Nat := field data.toList (data.ntOffset + 6) 2

/-- The number of bytes of the optional header. -/
def optionalSize (data : Bytes) : Nat := field data.toList (data.ntOffset + 20) 2

/-- The magic number of the optional header. -/
def magic (data : Bytes) : Nat := field data.toList (data.ntOffset + 24) 2

/-- The number of bytes that the image takes when loaded. -/
def sizeOfImage (data : Bytes) : Nat := field data.toList (data.ntOffset + 24 + 56) 4

/-- The number of data directories, which stands at the end of the fixed part of the optional
header. -/
def directoryCount (data : Bytes) (width : Width) : Nat :=
  field data.toList (data.ntOffset + 24 + (width.fixedSize - 4)) 4

/-- Where the section table begins. -/
def sectionTableOffset (data : Bytes) : Nat := data.ntOffset + 24 + data.optionalSize

/-- Where the section table ends, and all headers with it. -/
def headersEnd (data : Bytes) : Nat := data.sectionTableOffset + data.sectionCount * 40

/-- The number at a place of the section header with an index. -/
def sectionField (data : Bytes) (index place : Nat) : Nat :=
  field data.toList (data.sectionTableOffset + index * 40 + place) 4

end Bytes

/-- The headers before the section table are there, agree with each other and are those of an
image of a width. -/
structure HasHeaders (width : Width) (data : Bytes) : Prop where
  dosHeader : 64 ≤ data.size
  dosSignature : data.toList.take 2 = [0x4D, 0x5A]
  coffHeader : data.ntOffset + 24 ≤ data.size
  peSignature : (data.toList.drop data.ntOffset).take 4 = [0x50, 0x45, 0, 0]
  optionalHeader : data.sectionTableOffset ≤ data.size
  magic : data.magic = width.magic
  fixedPart : width.fixedSize ≤ data.optionalSize
  directories : data.directoryCount width ≤ (data.optionalSize - width.fixedSize) / 8

/-- Bytes are an executable image of a width: they are not too many, the headers are there, and
the section table lies inside the file and names sections whose bytes lie inside the file and
whose RVAs lie below the declared size of the loaded image. -/
structure IsImage (width : Width) (options : Options) (data : Bytes) : Prop
    extends HasHeaders width data where
  size_le : data.size ≤ min options.maxImageSize (space32 - 1)
  sectionTable : data.headersEnd ≤ data.size
  /-- The size and the offset of the bytes of a section. -/
  sectionBytes : ∀ i < data.sectionCount,
    data.sectionField i 20 + data.sectionField i 16 ≤ data.size
  /-- The RVA and the size of a section when loaded. -/
  sectionRvas : ∀ i < data.sectionCount,
    data.sectionField i 12 + data.sectionField i 8 ≤ data.sizeOfImage

/-- A list of bytes begins with `MZ` exactly if it holds that signature as a number. -/
theorem take_two_eq_iff {bytes : List UInt8} (long : 2 ≤ bytes.length) :
  bytes.take 2 = [0x4D, 0x5A] ↔ field bytes 0 2 = dosSignature
  := by
  have two : (bytes.take 2).length = 2 := by
    rw [List.length_take]
    omega
  have back := toLE_ofLE (bytes.take 2)
  rw [two] at back
  rw [field, List.drop_zero]
  constructor
  · intro signature
    rw [signature]
    rfl
  · intro signature
    rw [← back, signature]
    rfl

namespace NtHeaders

variable {data : Bytes} {dos : DosHeader} {nt : NtHeaders}

/-- The DOS header can be read exactly if it is there and begins with `MZ`. -/
theorem dosHeader_iff :
  DosHeader.read data = .ok dos
    ↔ 64 ≤ data.size ∧ data.toList.take 2 = [0x4D, 0x5A] ∧ dos = ⟨dosSignature, data.ntOffset⟩
  := by
  have inside (place width : Nat) (h : place + width ≤ 64) {bytes : List UInt8}
      (header : data.slice? 0 64 = some bytes) :
      field bytes place width = field data.toList place width := by
    rw [Bytes.field_of_slice? header h, Nat.zero_add]
  rw [DosHeader.read_eq_ok_iff]
  constructor
  · rintro ⟨bytes, header, signature, rfl⟩
    have fits := (Bytes.slice?_eq_some_iff.mp header).1
    rw [Nat.zero_add] at fits
    rw [inside 0 2 (by decide) header] at signature
    use fits
    constructor
    · apply (take_two_eq_iff _).mpr signature
      rw [Array.length_toList]
      exact Nat.le_trans (by decide) fits
    · rw [ntOffsetOffset, inside 0x3C 4 (by decide) header, Bytes.ntOffset]
  · rintro ⟨fits, signature, rfl⟩
    obtain ⟨bytes, header⟩ := Bytes.exists_slice? (show 0 + 64 ≤ data.size by omega)
    use bytes, header
    constructor
    · rw [inside 0 2 (by decide) header]
      apply (take_two_eq_iff _).mp signature
      rw [Array.length_toList]
      omega
    · rw [ntOffsetOffset, inside 0x3C 4 (by decide) header, Bytes.ntOffset]

/-- The headers that are read are there, and their fields are those at their places in the
file. -/
theorem hasHeaders_of_read (hdos : DosHeader.read data = .ok dos)
    (hnt : NtHeaders.read data dos.ntOffset = .ok nt) :
  HasHeaders nt.optional.width data
    ∧ nt.coff.sectionCount = data.sectionCount
    ∧ nt.sectionTableOffset = data.sectionTableOffset
    ∧ nt.optional.sizeOfImage = data.sizeOfImage
  := by
  obtain ⟨dosFits, dosSignature, rfl⟩ := dosHeader_iff.mp hdos
  obtain ⟨signature, hcoff, hoptional, room, -, table⟩ := read_eq_ok_iff.mp hnt
  obtain ⟨coffFits, count, size⟩ := CoffHeader.fields_of_read hcoff
  obtain ⟨optionalFits, large, magic, sizeOfImage, directories⟩ :=
    OptionalHeader.fields_of_read hoptional
  change nt.coff.optionalSize = data.optionalSize at size
  rw [size] at optionalFits large room table
  constructor
  · constructor
    · apply dosFits
    · apply dosSignature
    · apply coffFits
    · apply (Bytes.slice?_eq_some_iff.mp signature).2.symm
    · apply optionalFits
    · apply magic
    · apply large
    · rw [directories] at room
      apply room
  · use count, table, sizeOfImage

/-- Headers that are there can be read. -/
theorem exists_read_of_hasHeaders {width : Width} (h : HasHeaders width data) :
  ∃ dos nt, DosHeader.read data = .ok dos ∧ NtHeaders.read data dos.ntOffset = .ok nt
    ∧ nt.optional.width = width
  := by
  have least := width.le_fixedSize
  have coffFits := h.coffHeader
  have large := h.fixedPart
  have signature : data.slice? data.ntOffset peSignatureSize = some peSignature := by
    apply Bytes.slice?_eq_some_iff.mpr
    use Nat.le_trans (Nat.add_le_add_left (by decide) _) coffFits, h.peSignature.symm
  obtain ⟨coffBytes, coffSlice⟩ : ∃ bytes,
      data.slice? (data.ntOffset + peSignatureSize) coffHeaderSize = some bytes :=
    Bytes.exists_slice? coffFits
  have hcoff := CoffHeader.read_eq_ok_iff.mpr ⟨coffBytes, coffSlice, rfl⟩
  obtain ⟨-, -, size⟩ := CoffHeader.fields_of_read hcoff
  change _ = data.optionalSize at size
  obtain ⟨optionalBytes, optionalSlice⟩ : ∃ bytes,
      data.slice? (data.ntOffset + optionalOffset) data.optionalSize = some bytes :=
    Bytes.exists_slice? h.optionalHeader
  have magic : field optionalBytes 0 2 = width.magic := by
    rw [Bytes.field_of_slice? optionalSlice (by omega)]
    apply h.magic
  have hoptional : OptionalHeader.read data (data.ntOffset + optionalOffset) data.optionalSize
      = .ok (OptionalHeader.ofBytes width optionalBytes) :=
    OptionalHeader.read_eq_ok_iff.mpr ⟨optionalBytes, optionalSlice, magic, large, rfl⟩
  have room : (OptionalHeader.ofBytes width optionalBytes).directoryCount
      ≤ (data.optionalSize - width.fixedSize) / DataDirectory.byteSize := by
    rw [(OptionalHeader.fields_of_read hoptional).2.2.2.2]
    apply h.directories
  obtain ⟨directories, hdirectories⟩ := DataDirectory.exists_read optionalSlice large room
  use ⟨dosSignature, data.ntOffset⟩, ⟨CoffHeader.ofBytes coffBytes,
    OptionalHeader.ofBytes width optionalBytes, directories,
    data.ntOffset + optionalOffset + (CoffHeader.ofBytes coffBytes).optionalSize⟩
  refine ⟨dosHeader_iff.mpr ⟨h.dosHeader, h.dosSignature, rfl⟩, ?_, rfl⟩
  apply read_eq_ok_iff.mpr
  dsimp only
  rw [size]
  exact ⟨signature, hcoff, hoptional, room, hdirectories, rfl⟩

end NtHeaders

/-- The sections of the section table lie inside the file and inside the loaded image exactly if
the numbers in their headers say so. -/
theorem forall_mem_sections_iff {data : Bytes} {sections : List Section}
    (table : Section.readTable data data.sectionTableOffset data.sectionCount = .ok sections) :
  (∀ s ∈ sections,
      s.rawEnd ≤ data.size ∧ s.virtualAddress + s.virtualSize ≤ data.sizeOfImage)
    ↔ (∀ i < data.sectionCount,
        data.sectionField i 20 + data.sectionField i 16 ≤ data.size)
      ∧ ∀ i < data.sectionCount,
        data.sectionField i 12 + data.sectionField i 8 ≤ data.sizeOfImage
  := by
  have place (i place : Nat) (h : place + 4 ≤ sectionHeaderSize) :
      field ((data.toList.drop (data.sectionTableOffset + i * sectionHeaderSize)).take
        sectionHeaderSize) place 4 = data.sectionField i place :=
    field_take_drop _ _ h
  simp only [Section.forall_mem_of_readTable table, Section.rawEnd, Section.ofBytes,
    place _ 8 (by decide), place _ 12 (by decide), place _ 16 (by decide),
    place _ 20 (by decide), forall_and]

namespace Image

variable {width : Width} {options : Options} {data : Bytes}

/-- Bytes that can be parsed meet the conditions. -/
theorem isImage_of_parse {image : Image} (h : parse width options data = .ok image) :
  IsImage width options data
  := by
  obtain ⟨small, dos, nt, sections, layout, _, hdos, hnt, rfl, hsections, hlayout, -, -⟩ :=
    parse_eq_ok_iff.mp h
  obtain ⟨headers, count, table, sizeOfImage⟩ := NtHeaders.hasHeaders_of_read hdos hnt
  rw [count, table] at hsections
  rw [sizeOfImage] at hlayout
  obtain ⟨_, fits, _⟩ := Section.readTable_eq_ok_iff.mp hsections
  obtain ⟨inside, -⟩ := Layout.ofSections_eq_ok_iff.mp hlayout
  obtain ⟨sectionBytes, sectionRvas⟩ := (forall_mem_sections_iff hsections).mp inside
  exact ⟨headers, small, (Bytes.slice?_eq_some_iff.mp fits).1, sectionBytes, sectionRvas⟩

/-- Bytes that meet the conditions can be parsed. -/
theorem exists_parse_of_isImage (h : IsImage width options data) :
  ∃ image, parse width options data = .ok image
  := by
  obtain ⟨dos, nt, hdos, hnt, magic⟩ := NtHeaders.exists_read_of_hasHeaders h.toHasHeaders
  obtain ⟨-, count, table, sizeOfImage⟩ := NtHeaders.hasHeaders_of_read hdos hnt
  obtain ⟨sections, hsections⟩ : ∃ sections,
      Section.readTable data data.sectionTableOffset data.sectionCount = .ok sections := by
    obtain ⟨bytes, slice⟩ := Bytes.exists_slice? h.sectionTable
    use Section.listOfBytes data.sectionCount bytes
    apply Section.readTable_eq_ok_iff.mpr
    use bytes, slice
  have inside := (forall_mem_sections_iff hsections).mpr ⟨h.sectionBytes, h.sectionRvas⟩
  have hlayout := Layout.ofSections_eq_ok_iff.mpr ⟨inside, rfl⟩
  have offsets := options.lt_space32 h.size_le
  have hloadMap := Layout.ofMappings_of_ofSections hlayout offsets (field_lt _ _ _)
  rw [← count, ← table] at hsections
  rw [← sizeOfImage] at hlayout
  exact ⟨_, parse_eq_ok_iff.mpr ⟨h.size_le, dos, nt, sections, _, _, hdos, hnt, magic, hsections,
    hlayout, hloadMap, rfl⟩⟩

/-- Bytes are parsed exactly if they meet the conditions.  No load map is ever refused, and
where an optional header is there and its directories fit into it, they can be read. -/
theorem exists_parse_iff (width : Width) (options : Options) (data : Bytes) :
  ((∃ image, parse width options data = .ok image) ↔ IsImage width options data)
    ∧ (∀ error, parse width options data ≠ .error (.mapping error))
    ∧ ∀ offset size optional, OptionalHeader.read data offset size = .ok optional →
      optional.directoryCount ≤ (size - optional.width.fixedSize) / DataDirectory.byteSize →
      ∃ directories, DataDirectory.read data (offset + optional.width.fixedSize)
        optional.directoryCount = .ok directories
  := by
  and_intros
  · constructor
    · rintro ⟨image, h⟩
      apply isImage_of_parse h
    · apply exists_parse_of_isImage
  · intro error h
    rcases reported_of_parse h with h | h | h | ⟨_, h⟩ | h | h <;> cases h
  · intro offset size optional header room
    obtain ⟨bytes, slice, -, large, -⟩ := OptionalHeader.read_eq_ok_iff.mp header
    apply DataDirectory.exists_read slice large room

/-- The sample meets the conditions, and the six directories of its optional header can be
read. -/
theorem exists_parse_iff_sample :
  IsImage .bits32 {} sampleBytes
    ∧ OptionalHeader.read sampleBytes 0x58 0x90
      = .ok ⟨.bits32, 0, 0x400000, 0, 0, 0x3000, 0, 6⟩
    ∧ ∃ directories, DataDirectory.read sampleBytes (0x58 + Width.bits32.fixedSize) 6
      = .ok directories
  := by
  obtain ⟨conditions, -, room⟩ := exists_parse_iff .bits32 {} sampleBytes
  have header : OptionalHeader.read sampleBytes 0x58 0x90
      = .ok ⟨.bits32, 0, 0x400000, 0, 0, 0x3000, 0, 6⟩ := by
    decide +kernel
  use conditions.mp ⟨sample, parse_sampleBytes⟩, header
  apply room 0x58 0x90 _ header
  decide

end Image

end ImageRefs
