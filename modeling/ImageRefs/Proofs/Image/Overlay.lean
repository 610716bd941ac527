import ImageRefs.Proofs.Image.Grammar

/-!
# What follows an image in its file

The headers and the bytes of all sections lie in the part of the file that an image keeps.
Parsing reads the bytes up to the end of the section table and keeps the others as they are
(`Image.parse_of_agreeBelow_headersEnd`).  So the bytes that follow the image can be changed, cut
off or added to, and the file still holds the same image (`Image.parse_ignores_overlay`).
-/

namespace ImageRefs

/-- Both buffers reach up to a bound and hold the same bytes below it. -/
structure Bytes.AgreeBelow (bound : Nat) (a b : Bytes) : Prop where
  left_le : bound ≤ a.size
  right_le : bound ≤ b.size
  same : ∀ i < bound, a[i]? = b[i]?

section Agree

variable {a b : Bytes} {bound : Nat} (agree : Bytes.AgreeBelow bound a b)
include agree

namespace Bytes.AgreeBelow

theorem slice?_eq {offset size : Nat} (inside : offset + size ≤ bound) :
  a.slice? offset size = b.slice? offset size
  := by
  apply slice?_congr
  · exact iff_of_true (Nat.le_trans inside agree.left_le) (Nat.le_trans inside agree.right_le)
  · intro i _ high
    apply agree.same
    omega

theorem read?_eq {width offset : Nat} (inside : offset + width ≤ bound) :
  a.read? width offset = b.read? width offset
  := by
  rw [Bytes.read?, Bytes.read?, agree.slice?_eq inside]

/-- A slice below the bound is there in both buffers, so that the size of neither is
reported. -/
theorem require_eq {offset size : Nat} (inside : offset + size ≤ bound) :
  a.require offset size = b.require offset size
  := by
  obtain ⟨bytes, slice⟩ := exists_slice? (Nat.le_trans inside agree.left_le)
  rw [Bytes.require_eq_ok_iff.mpr slice]
  rw [agree.slice?_eq inside] at slice
  rw [Bytes.require_eq_ok_iff.mpr slice]

theorem extract_eq :
  a.extract 0 bound = b.extract 0 bound
  := by
  have left := agree.left_le
  have right := agree.right_le
  apply Array.ext_getElem?
  intro i
  rw [Array.getElem?_extract, Array.getElem?_extract, Nat.min_eq_left left,
    Nat.min_eq_left right, Nat.zero_add]
  split
  · apply agree.same
    omega
  · rfl

theorem mono {bound' : Nat} (le : bound' ≤ bound) :
  Bytes.AgreeBelow bound' a b
  := by
  use Nat.le_trans le agree.left_le, Nat.le_trans le agree.right_le
  intro i inside
  apply agree.same
  omega

end Bytes.AgreeBelow

/-! ### Headers below the bound -/

theorem DosHeader.read_congr (inside : dosHeaderSize ≤ bound) :
  DosHeader.read a = DosHeader.read b
  := by
  rw [DosHeader.read, DosHeader.read, agree.require_eq (by omega)]

theorem CoffHeader.read_congr {offset : Nat} (inside : offset + coffHeaderSize ≤ bound) :
  CoffHeader.read a offset = CoffHeader.read b offset
  := by
  rw [CoffHeader.read, CoffHeader.read, agree.require_eq inside]

theorem OptionalHeader.read_congr {offset size : Nat} (inside : offset + size ≤ bound) :
  OptionalHeader.read a offset size = OptionalHeader.read b offset size
  := by
  rw [OptionalHeader.read, OptionalHeader.read, agree.require_eq inside]

theorem DataDirectory.readFrom_congr {offset count : Nat}
    (inside : offset + count * byteSize ≤ bound) :
  readFrom a count offset = readFrom b count offset
  := by
  induction count generalizing offset with
  | zero => rfl
  | succ count ih =>
    have reach := agree.right_le
    rw [byteSize] at inside
    obtain ⟨rva, hrva⟩ := Bytes.exists_read? (show offset + 4 ≤ b.size by omega)
    obtain ⟨size, hsize⟩ := Bytes.exists_read? (show offset + 4 + 4 ≤ b.size by omega)
    rw [readFrom, readFrom, agree.read?_eq (by omega), agree.read?_eq (by omega), hrva, hsize,
      ih (by rw [byteSize]; omega)]

theorem NtHeaders.read_congr {offset : Nat} {nt : NtHeaders} (h : read a offset = .ok nt)
    (inside : nt.sectionTableOffset ≤ bound) :
  read b offset = .ok nt
  := by
  obtain ⟨signature, hcoff, hoptional, room, hdirectories, table⟩ := read_eq_ok_iff.mp h
  obtain ⟨_, _, _, large, _⟩ := OptionalHeader.read_eq_ok_iff.mp hoptional
  have behind : offset + peSignatureSize + coffHeaderSize = offset + optionalOffset :=
    Nat.add_assoc _ _ _
  rw [DataDirectory.byteSize] at room
  rw [agree.slice?_eq (by omega)] at signature
  rw [CoffHeader.read_congr agree (by omega)] at hcoff
  rw [OptionalHeader.read_congr agree (by omega)] at hoptional
  rw [DataDirectory.read, DataDirectory.readFrom_congr agree
    (by rw [DataDirectory.byteSize]; omega)] at hdirectories
  exact read_eq_ok_iff.mpr ⟨signature, hcoff, hoptional, room, hdirectories, table⟩

theorem Section.readTable_congr {offset count : Nat}
    (inside : offset + count * sectionHeaderSize ≤ bound) :
  readTable a offset count = readTable b offset count
  := by
  rw [readTable, readTable, agree.require_eq inside]

end Agree

/-- The section table that is read ends where the headers end. -/
theorem NtHeaders.sectionTableEnd_eq {data : Bytes} {dos : DosHeader} {nt : NtHeaders}
    (hdos : DosHeader.read data = .ok dos) (hnt : NtHeaders.read data dos.ntOffset = .ok nt) :
  nt.sectionTableOffset + nt.coff.sectionCount * sectionHeaderSize = data.headersEnd
  := by
  obtain ⟨-, count, table, -⟩ := hasHeaders_of_read hdos hnt
  rw [table, count]
  rfl

/-- A layout is one for every file that holds the bytes of the sections. -/
theorem Layout.ofSections_of_bound_le {sections : List Section} {layout : Layout}
    {imageSize sizeOfImage imageSize' : Nat}
    (h : ofSections sections imageSize sizeOfImage = .ok layout)
    (fits : layout.bound ≤ imageSize') :
  ofSections sections imageSize' sizeOfImage = .ok layout
  := by
  obtain ⟨inside, rfl⟩ := ofSections_eq_ok_iff.mp h
  apply ofSections_eq_ok_iff.mpr
  refine ⟨?_, rfl⟩
  intro s hs
  use Nat.le_trans (rawEnd_le_boundOf hs) fits
  apply (inside s hs).2

namespace Image

variable {width : Width} {options : Options} {data : Bytes} {image : Image}

/-- An image keeps the bytes up to the end of its section table and of the bytes of all of its
sections, and the file holds as many. -/
theorem bytes_of_parse (h : parse width options data = .ok image) :
  image.bytes = data.extract 0 (max data.headersEnd (Layout.boundOf image.sections))
    ∧ max data.headersEnd (Layout.boundOf image.sections) ≤ data.size
  := by
  obtain ⟨-, dos, nt, sections, layout, _, hdos, hnt, -, -, hlayout, -, rfl⟩ :=
    parse_eq_ok_iff.mp h
  obtain ⟨inside, rfl⟩ := Layout.ofSections_eq_ok_iff.mp hlayout
  constructor
  · rw [NtHeaders.sectionTableEnd_eq hdos hnt]
  · apply Nat.max_le.mpr
    use (isImage_of_parse h).sectionTable
    apply Layout.boundOf_le
    intro s hs
    apply (inside s hs).1

theorem size_of_parse (h : parse width options data = .ok image) :
  image.size = max data.headersEnd (Layout.boundOf image.sections)
  := by
  obtain ⟨bytes, fits⟩ := bytes_of_parse h
  rw [size, bytes, Array.size_extract, Nat.min_eq_left fits, Nat.sub_zero]

/-- The section table ends behind the DOS header, even if the other headers begin inside of
it. -/
theorem dosHeaderSize_le_headersEnd (h : HasHeaders width data) :
  dosHeaderSize ≤ data.headersEnd
  := by
  have large := h.fixedPart
  have least := width.le_fixedSize
  rw [dosHeaderSize, Bytes.headersEnd, Bytes.sectionTableOffset]
  omega

/-- A file with the same bytes up to the end of the section table holds the same image, apart
from the bytes that it keeps. -/
theorem parse_of_agreeBelow_headersEnd {other : Bytes} (h : parse width options data = .ok image)
    (agree : Bytes.AgreeBelow data.headersEnd data other) (long : image.size ≤ other.size)
    (small : other.size ≤ options.imageSizeLimit) :
  parse width options other = .ok { image with bytes := other.extract 0 image.size }
  := by
  have dosInside := dosHeaderSize_le_headersEnd (isImage_of_parse h).toHasHeaders
  obtain ⟨-, dos, nt, sections, layout, loadMap, hdos, hnt, magic, hsections, hlayout, hloadMap,
    himage⟩ := parse_eq_ok_iff.mp h
  have tableEnd := NtHeaders.sectionTableEnd_eq hdos hnt
  have bound : layout.bound = Layout.boundOf image.sections := by
    obtain ⟨-, rfl⟩ := Layout.ofSections_eq_ok_iff.mp hlayout
    rw [himage]
  have size : max (nt.sectionTableOffset + nt.coff.sectionCount * sectionHeaderSize) layout.bound
      = image.size := by
    rw [tableEnd, bound, size_of_parse h]
  apply parse_eq_ok_iff.mpr
  use small, dos, nt, sections, layout, loadMap
  and_intros
  · rw [← DosHeader.read_congr agree dosInside, hdos]
  · apply NtHeaders.read_congr agree hnt (by omega)
  · apply magic
  · rw [← Section.readTable_congr agree (by omega), hsections]
  · apply Layout.ofSections_of_bound_le hlayout
    omega
  · apply hloadMap
  · rw [size, himage]

/-- A file that begins with the bytes that an image keeps holds the same image. -/
theorem parse_congr {other : Bytes} (h : parse width options data = .ok image)
    (agree : Bytes.AgreeBelow image.size data other)
    (small : other.size ≤ options.imageSizeLimit) :
  parse width options other = .ok image
  := by
  have size := size_of_parse h
  have headers := agree.mono (show data.headersEnd ≤ image.size by omega)
  have bytes : image.bytes = other.extract 0 image.size := by
    rw [← agree.extract_eq, size, (bytes_of_parse h).1]
  rw [parse_of_agreeBelow_headersEnd h headers agree.right_le small, ← bytes]

/-- An image takes up the beginning of its file: the bytes that it keeps hold all headers, up
to the end of the section table, and the bytes of all sections.  A file of an admitted size that
begins with the same bytes holds the same image, with the same tables of locations, states and
references, whatever follows. -/
theorem parse_ignores_overlay (h : parse width options data = .ok image) :
  image.size ≤ data.size
    ∧ image.bytes = data.extract 0 image.size
    ∧ image.size = max data.headersEnd (Layout.boundOf image.sections)
    ∧ dosHeaderSize ≤ image.size ∧ data.headersEnd ≤ image.size
    ∧ (∀ s ∈ image.sections, s.rawEnd ≤ image.size)
    ∧ ∀ other : Bytes, image.size ≤ other.size → other.size ≤ options.imageSizeLimit →
      (∀ i < image.size, other[i]? = data[i]?) → parse width options other = .ok image
  := by
  have size := size_of_parse h
  obtain ⟨bytes, fits⟩ := bytes_of_parse h
  rw [← size] at bytes fits
  have dosInside := dosHeaderSize_le_headersEnd (isImage_of_parse h).toHasHeaders
  and_intros
  · apply fits
  · apply bytes
  · apply size
  · omega
  · omega
  · apply (wellFormed_of_parse h).rawEnd_le
  · intro other long small same
    apply parse_congr h _ small
    use fits, long
    intro i inside
    rw [same i inside]

/-- The sample image with a call behind it, which belongs to none of its sections. -/
theorem parse_ignores_overlay_sample :
  parse .bits32 {} (sampleBytes ++ #[0xE8, 0, 0, 0, 0]) = .ok sample
  := by
  obtain ⟨-, -, -, -, -, -, same⟩ := parse_ignores_overlay parse_sampleBytes
  apply same
  · decide +kernel
  · decide +kernel
  · intro i inside
    apply Array.getElem?_append_left inside

end Image

end ImageRefs
