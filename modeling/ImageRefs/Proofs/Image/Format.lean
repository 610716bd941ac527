import ImageRefs.Image.Format
import ImageRefs.Proofs.Image.Grammar
import Mathlib.Data.Option.Basic

/-!
# Telling formats

The magic number alone tells the format of an image, before its headers are read in full.  What
it tells agrees with parsing (`Image.formats_agree`): an image that can be parsed has the magic
number of its width, and bytes with the magic number of a width are refused as images of that
width only because they are damaged, misplaced or too many.
-/

namespace ImageRefs

variable {data : Bytes}

/-- The magic number is found behind the two signatures, if the image holds the fixed part of
the optional header that it announces. -/
theorem probeMagic_eq_some_iff {magic : Nat} :
  probeMagic data = some magic
    ↔ ∃ dos, DosHeader.read data = .ok dos
      ∧ data.slice? dos.ntOffset peSignatureSize = some peSignature
      ∧ data.read? 2 (dos.ntOffset + optionalOffset) = some magic
      ∧ ∀ width, Width.ofMagic? magic = some width →
        dos.ntOffset + optionalOffset + width.fixedSize ≤ data.size
  := by
  rw [probeMagic]
  simp only [Option.bind_eq_bind, Option.bind_eq_some_iff, Option.guard_eq_some', exists_const,
    DosHeader.read_eq_ok_iff]
  constructor
  · rintro ⟨bytes, header, signature, _, found, rfl, magic, read, h⟩
    use ⟨dosSignature, field bytes ntOffsetOffset 4⟩, ⟨bytes, header, signature, rfl⟩, found
    split at h
    · next unknown =>
      cases h
      use read
      intro width known
      rw [unknown] at known
      cases known
    · next width known =>
      obtain ⟨fixed, slice, rfl⟩ := Option.map_eq_some_iff.mp h
      use read
      intro width' known'
      cases known.symm.trans known'
      apply (Bytes.slice?_eq_some_iff.mp slice).1
  · rintro ⟨_, ⟨bytes, header, signature, rfl⟩, found, read, fits⟩
    use bytes, header, signature, peSignature, found, rfl, magic, read
    split
    · rfl
    · next width known =>
      obtain ⟨fixed, slice⟩ := Bytes.exists_slice? (fits width known)
      rw [slice]
      rfl

namespace Width

variable {width : Width}

theorem isProbed_iff :
  width.isProbed data = true ↔ probeMagic data = some width.magic
  := beq_iff_eq

/-- The magic number tells the width. -/
theorem magic_injective {other : Width} (h : width.magic = other.magic) :
  width = other
  := Option.some.inj
    ((ofMagic?_eq_some_iff.mpr rfl).symm.trans (ofMagic?_eq_some_iff.mpr h))

/-- Headers of a width have its magic number. -/
theorem isProbed_of_hasHeaders (h : HasHeaders width data) :
  width.isProbed data = true
  := by
  obtain ⟨dos, nt, hdos, hnt, rfl⟩ := NtHeaders.exists_read_of_hasHeaders h
  obtain ⟨signature, -, hoptional, -⟩ := NtHeaders.read_eq_ok_iff.mp hnt
  obtain ⟨fits, large, magic, -⟩ := OptionalHeader.fields_of_read hoptional
  have least := nt.optional.width.le_fixedSize
  apply isProbed_iff.mpr
  apply probeMagic_eq_some_iff.mpr
  use dos, hdos, signature
  constructor
  · apply Bytes.read?_eq_some_iff.mpr
    use Nat.le_trans (by omega) fits, magic
  · intro width known
    obtain rfl := magic_injective (ofMagic?_eq_some_iff.mp known)
    omega

/-- Bytes that have the magic number of a width have that of no other. -/
theorem isProbed_unique {other : Width} (h : width.isProbed data = true)
    (h' : other.isProbed data = true) :
  width = other
  := by
  apply magic_injective
  apply Option.some.inj
  rw [← isProbed_iff.mp h, isProbed_iff.mp h']

theorem mem_all (width : Width) :
  width ∈ all
  := by
  cases width <;> decide

/-- The width that is detected is the one whose magic number is found. -/
theorem detect?_eq_some_iff :
  detect? data = some width ↔ width.isProbed data = true
  := by
  constructor
  · apply List.find?_some
  · intro h
    obtain ⟨found, hfound⟩ : ∃ found, all.find? (·.isProbed data) = some found := by
      rw [← Option.isSome_iff_exists, List.find?_isSome]
      use width, mem_all width
    have probed := List.find?_some hfound
    rw [detect?, hfound, isProbed_unique h probed]

end Width

namespace Image

variable {width : Width} {options : Options}

/-- Bytes that can be parsed have the magic number of the width. -/
theorem isProbed_of_parse {image : Image} (h : parse width options data = .ok image) :
  width.isProbed data = true
  := Width.isProbed_of_hasHeaders (isImage_of_parse h).toHasHeaders

/-- To look at the magic number first refuses no bytes that can be parsed. -/
theorem ofWidth?_eq_toOption (width : Width) (options : Options) (data : Bytes) :
  ofWidth? width options data = (parse width options data).toOption
  := by
  rw [ofWidth?]
  split
  · rfl
  · next other =>
    cases h : parse width options data with
    | ok image => cases other (isProbed_of_parse h)
    | error error => rfl

theorem ofWidth?_eq_some_iff {image : Image} :
  ofWidth? width options data = some image ↔ parse width options data = .ok image
  := by
  rw [ofWidth?_eq_toOption]
  cases parse width options data <;> simp [Except.toOption]

/-- Bytes with the magic number of a width are refused as images of that width for other
reasons than a signature or the magic number. -/
theorem of_parse_eq_error_of_isProbed {error : ImageError} (probed : width.isProbed data = true)
    (h : parse width options data = .error error) :
  error = .tooLarge data.size options.imageSizeLimit ∨ error.isDamage = true
    ∨ error.isMisplaced = true
  := by
  obtain ⟨dos, hdos, signature, read, -⟩ :=
    probeMagic_eq_some_iff.mp (Width.isProbed_iff.mp probed)
  rcases of_parse_eq_error h with h | h | ⟨_, hdos', h⟩
  · left
    apply h
  · rw [hdos] at h
    cases h
  right
  cases hdos.symm.trans hdos'
  rcases h with h | ⟨nt, hnt, ⟨other, -⟩ | ⟨-, h⟩⟩
  · left
    rcases NtHeaders.of_read_eq_error h with h | ⟨-, h⟩ | ⟨magic, read', unknown, -⟩
    · apply h
    · cases h signature
    · cases read.symm.trans read'
      rw [Width.ofMagic?_eq_some_iff.mpr rfl] at unknown
      cases unknown
  · have found := Width.isProbed_of_hasHeaders (NtHeaders.hasHeaders_of_read hdos hnt).1
    cases other (Width.isProbed_unique found probed)
  · apply h

/-- Bytes that can be parsed as an image of a width are refused as images of the other. -/
theorem parse_of_ne {other : Width} {image : Image} (h : parse width options data = .ok image)
    (ne : other ≠ width) :
  parse other options data = .error (.wrongMagic width.magic)
  := by
  obtain ⟨small, dos, nt, _, _, _, hdos, hnt, rfl, -⟩ := parse_eq_ok_iff.mp h
  rw [parse, if_neg (Nat.not_lt.mpr small)]
  apply bind_eq_error_iff.mpr
  right
  use dos, hdos
  apply bind_eq_error_iff.mpr
  right
  use nt, hnt
  rw [if_neg ne.symm]

/-- In whatever order widths are tried, the image is the one that can be parsed. -/
theorem findSome?_ofWidth?_eq_some_iff {widths : List Width} {image : Image} :
  (widths.findSome? fun width => ofWidth? width options data) = some image
    ↔ image.width ∈ widths ∧ parse image.width options data = .ok image
  := by
  have sound {image : Image}
      (h : (widths.findSome? fun width => ofWidth? width options data) = some image) :
      image.width ∈ widths ∧ parse image.width options data = .ok image := by
    obtain ⟨width, tried, h⟩ := List.exists_of_findSome?_eq_some h
    have parsed := ofWidth?_eq_some_iff.mp h
    rw [width_of_parse parsed]
    use tried
  constructor
  · apply sound
  · rintro ⟨tried, parsed⟩
    obtain ⟨found, hfound⟩ : ∃ found,
        (widths.findSome? fun width => ofWidth? width options data) = some found := by
      rw [← Option.isSome_iff_exists, List.findSome?_isSome_iff]
      use image.width, tried
      rw [ofWidth?_eq_some_iff.mpr parsed]
      rfl
    -- No other image is found on the way, as the bytes have one magic number only.
    have parsed' := (sound hfound).2
    rw [Width.isProbed_unique (isProbed_of_parse parsed') (isProbed_of_parse parsed), parsed]
      at parsed'
    cases parsed'
    apply hfound

/-- What the magic number tells agrees with parsing.

* Looking at the magic number first refuses no image.
* Bytes with the magic number of a width are not refused for a signature or the magic number.
* An image of a width is refused as one of the other width, for its own magic number.
* The image that bytes hold is the one that can be parsed, its width is the one that is
  detected, and it does not depend on which width is tried first. -/
theorem formats_agree (options : Options) (data : Bytes) :
  (∀ width, ofWidth? width options data = (parse width options data).toOption)
    ∧ (∀ width error, width.isProbed data = true → parse width options data = .error error →
      error ≠ .dosSignature ∧ error ≠ .peSignature ∧ ∀ magic, error ≠ .wrongMagic magic)
    ∧ (∀ width other image, parse width options data = .ok image → other ≠ width →
      parse other options data = .error (.wrongMagic data.magic) ∧ data.magic = width.magic)
    ∧ (∀ image, ofBytes? options data = some image
      ↔ parse image.width options data = .ok image)
    ∧ (∀ width image, parse width options data = .ok image → image.width = width)
    ∧ (∀ image, ofBytes? options data = some image → Width.detect? data = some image.width)
    ∧ Width.all.reverse.findSome? (fun width => ofWidth? width options data)
      = ofBytes? options data
  := by
  have found {image : Image} : ofBytes? options data = some image
      ↔ parse image.width options data = .ok image := by
    rw [ofBytes?, findSome?_ofWidth?_eq_some_iff]
    apply and_iff_right (Width.mem_all _)
  and_intros
  · intro width
    apply ofWidth?_eq_toOption
  · intro width error probed h
    have refused := of_parse_eq_error_of_isProbed probed h
    and_intros
    · rintro rfl
      rcases refused with h | h | h <;> cases h
    · rintro rfl
      rcases refused with h | h | h <;> cases h
    · rintro magic rfl
      rcases refused with h | h | h <;> cases h
  · intro width other image h ne
    have magic := (isImage_of_parse h).magic
    rw [magic]
    use parse_of_ne h ne
  · intro image
    apply found
  · intro width image h
    apply width_of_parse h
  · intro image h
    apply Width.detect?_eq_some_iff.mpr
    apply isProbed_of_parse (found.mp h)
  · apply Option.ext
    intro image
    rw [findSome?_ofWidth?_eq_some_iff, found, List.mem_reverse]
    apply and_iff_right (Width.mem_all _)

/-- The sample is found as a 32-bit image and refused as a 64-bit one.  Cut off in its section
table it still has its magic number, and is refused for the bytes that are missing. -/
theorem formats_agree_sample :
  (parse .bits64 {} sampleBytes = .error (.wrongMagic sampleBytes.magic)
      ∧ sampleBytes.magic = Width.bits32.magic)
    ∧ ofBytes? {} sampleBytes = some sample ∧ Width.detect? sampleBytes = some .bits32
    ∧ Width.bits32.isProbed (sampleBytes.extract 0 0x100) = true
    ∧ parse .bits32 {} (sampleBytes.extract 0 0x100) = .error (.truncated 0x138 0x100)
    ∧ ImageError.truncated 0x138 0x100 ≠ .dosSignature
    ∧ ImageError.truncated 0x138 0x100 ≠ .peSignature
    ∧ ∀ magic, ImageError.truncated 0x138 0x100 ≠ .wrongMagic magic
  := by
  obtain ⟨-, -, other, found, -, detected, -⟩ := formats_agree {} sampleBytes
  obtain ⟨-, refused, -⟩ := formats_agree {} (sampleBytes.extract 0 0x100)
  have image : ofBytes? {} sampleBytes = some sample := (found sample).mpr parse_sampleBytes
  have probed : Width.bits32.isProbed (sampleBytes.extract 0 0x100) = true := by
    decide +kernel
  have cut : parse .bits32 {} (sampleBytes.extract 0 0x100)
      = .error (.truncated 0x138 0x100) := by
    decide +kernel
  exact ⟨other _ .bits64 sample parse_sampleBytes (by decide), image, detected sample image,
    probed, cut, refused _ _ probed cut⟩

end Image

end ImageRefs
