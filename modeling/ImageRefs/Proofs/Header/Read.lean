import ImageRefs.Header.Nt
import ImageRefs.Proofs.Bytes.Field

/-!
# Reading headers

For each reader of a header `read_eq_ok_iff` says what it takes to read the header, and
`of_read_eq_error` why it cannot be read: the bytes are damaged, or a signature or the magic
number is not there.
-/

namespace ImageRefs

/-! ### Computations that may fail -/

/-- A computation that goes on with the result of another succeeds if both do. -/
theorem bind_eq_ok_iff {ε α β : Type} {x : Except ε α} {f : α → Except ε β} {b : β} :
  (x >>= f) = .ok b ↔ ∃ a, x = .ok a ∧ f a = .ok b
  := by
  cases x <;> simp [bind, Except.bind]

/-- A computation that goes on with the result of another fails if one of them does. -/
theorem bind_eq_error_iff {ε α β : Type} {x : Except ε α} {f : α → Except ε β} {e : ε} :
  (x >>= f) = .error e ↔ x = .error e ∨ ∃ a, x = .ok a ∧ f a = .error e
  := by
  cases x <;> simp [bind, Except.bind]

theorem map_eq_ok_iff {ε α β : Type} {x : Except ε α} {f : α → β} {b : β} :
  x.map f = .ok b ↔ ∃ a, x = .ok a ∧ f a = b
  := by
  cases x <;> simp [Except.map]

theorem map_eq_error_iff {ε α β : Type} {x : Except ε α} {f : α → β} {e : ε} :
  x.map f = .error e ↔ x = .error e
  := by
  cases x <;> simp [Except.map]

theorem mapError_eq_ok_iff {ε ε' α : Type} {x : Except ε α} {f : ε → ε'} {a : α} :
  x.mapError f = .ok a ↔ x = .ok a
  := by
  cases x with
  | ok b =>
    constructor
    · rintro ⟨⟩
      rfl
    · rintro ⟨⟩
      rfl
  | error e => exact iff_of_false nofun nofun

/-! ### Single headers -/

/-- The headers are cut off, or do not agree with each other. -/
def ImageError.isDamage : ImageError → Bool
  | .truncated _ _ | .optionalTooSmall _ | .tooManyDirectories _ _ => true
  | _ => false

theorem Bytes.isDamage_of_require {data : Bytes} {offset size : Nat} {error : ImageError}
    (h : data.require offset size = .error error) :
  error.isDamage = true
  := by
  rw [Bytes.require] at h
  split at h
  · cases h
  · cases h
    rfl

theorem DosHeader.read_eq_ok_iff {data : Bytes} {dos : DosHeader} :
  DosHeader.read data = .ok dos
    ↔ ∃ bytes, data.slice? 0 dosHeaderSize = some bytes ∧ field bytes 0 2 = dosSignature
      ∧ dos = ⟨dosSignature, field bytes ntOffsetOffset 4⟩
  := by
  simp only [DosHeader.read, bind_eq_ok_iff, Bytes.require_eq_ok_iff]
  apply exists_congr
  intro bytes
  apply and_congr_right
  intro _
  split
  · next signature => simp [signature, eq_comm]
  · next signature => simp [signature]

theorem DosHeader.of_read_eq_error {data : Bytes} {error : ImageError}
    (h : DosHeader.read data = .error error) :
  error.isDamage = true ∨ error = .dosSignature
  := by
  rcases bind_eq_error_iff.mp h with h | ⟨bytes, _, h⟩
  · left
    apply Bytes.isDamage_of_require h
  split at h
  · cases h
  · cases h
    right
    rfl

theorem CoffHeader.read_eq_ok_iff {data : Bytes} {offset : Nat} {coff : CoffHeader} :
  CoffHeader.read data offset = .ok coff
    ↔ ∃ bytes, data.slice? offset coffHeaderSize = some bytes ∧ ofBytes bytes = coff
  := by
  simp only [CoffHeader.read, map_eq_ok_iff, Bytes.require_eq_ok_iff]

/-- The numbers of a COFF header that later headers depend on. -/
theorem CoffHeader.fields_of_read {data : Bytes} {offset : Nat} {coff : CoffHeader}
    (h : CoffHeader.read data offset = .ok coff) :
  offset + coffHeaderSize ≤ data.size
    ∧ coff.sectionCount = field data.toList (offset + 2) 2
    ∧ coff.optionalSize = field data.toList (offset + 16) 2
  := by
  obtain ⟨bytes, slice, rfl⟩ := read_eq_ok_iff.mp h
  use (Bytes.slice?_eq_some_iff.mp slice).1
  constructor
  · apply Bytes.field_of_slice? slice (by decide)
  · apply Bytes.field_of_slice? slice (by decide)

namespace OptionalHeader

theorem read_eq_ok_iff {data : Bytes} {offset size : Nat} {optional : OptionalHeader} :
  OptionalHeader.read data offset size = .ok optional
    ↔ ∃ bytes, data.slice? offset size = some bytes
      ∧ field bytes 0 2 = optional.width.magic ∧ optional.width.fixedSize ≤ size
      ∧ ofBytes optional.width bytes = optional
  := by
  rw [OptionalHeader.read]
  split
  · next small =>
    have least := optional.width.le_fixedSize
    have large : ¬ optional.width.fixedSize ≤ size := by omega
    simp [large]
  · simp only [bind_eq_ok_iff, Bytes.require_eq_ok_iff]
    apply exists_congr
    intro bytes
    apply and_congr_right
    intro _
    rw [← Width.ofMagic?_eq_some_iff]
    split
    · next unknown => simp [unknown]
    · next width known =>
      rw [known, Option.some.injEq]
      split
      · next small =>
        simp only [reduceCtorEq, false_iff]
        rintro ⟨rfl, large, -⟩
        omega
      · next large =>
        constructor
        · rintro ⟨⟩
          use rfl, Nat.le_of_not_lt large
          rfl
        · rintro ⟨rfl, -, read⟩
          rw [read]

/-- The numbers of an optional header that decide about an image. -/
theorem fields_of_read {data : Bytes} {offset size : Nat} {optional : OptionalHeader}
    (h : OptionalHeader.read data offset size = .ok optional) :
  offset + size ≤ data.size ∧ optional.width.fixedSize ≤ size
    ∧ field data.toList offset 2 = optional.width.magic
    ∧ optional.sizeOfImage = field data.toList (offset + 56) 4
    ∧ optional.directoryCount = field data.toList (offset + (optional.width.fixedSize - 4)) 4
  := by
  obtain ⟨bytes, slice, magic, large, fields⟩ := read_eq_ok_iff.mp h
  have least := optional.width.le_fixedSize
  have inside (place width : Nat) (h : place + width ≤ optional.width.fixedSize) :
      field bytes place width = field data.toList (offset + place) width :=
    Bytes.field_of_slice? slice (Nat.le_trans h large)
  use (Bytes.slice?_eq_some_iff.mp slice).1, large
  and_intros
  · rw [← magic, inside 0 2 (by omega), Nat.add_zero]
  · rw [← fields]
    apply inside 56 4 (by omega)
  · rw [← inside _ 4 (by omega), ← fields]
    rfl

/-- The declared size of a loaded image has 32 bits. -/
theorem sizeOfImage_lt {data : Bytes} {offset size : Nat} {optional : OptionalHeader}
    (h : OptionalHeader.read data offset size = .ok optional) :
  optional.sizeOfImage < space32
  := by
  obtain ⟨-, -, -, sizeOfImage, -⟩ := fields_of_read h
  rw [sizeOfImage]
  apply field_lt _ _ 4

/-- An optional header that cannot be read is damaged or has an unknown magic number. -/
theorem of_read_eq_error {data : Bytes} {offset size : Nat} {error : ImageError}
    (h : OptionalHeader.read data offset size = .error error) :
  error.isDamage = true
    ∨ ∃ magic, data.read? 2 offset = some magic ∧ Width.ofMagic? magic = none
      ∧ error = .wrongMagic magic
  := by
  rw [OptionalHeader.read] at h
  split at h
  · cases h
    left
    rfl
  next large =>
  rcases bind_eq_error_iff.mp h with h | ⟨bytes, found, h⟩
  · left
    apply Bytes.isDamage_of_require h
  split at h
  · next unknown =>
    cases h
    right
    have header := Bytes.require_eq_ok_iff.mp found
    have fits := (Bytes.slice?_eq_some_iff.mp header).1
    use field bytes 0 2
    constructor
    · apply Bytes.read?_eq_some_iff.mpr
      constructor
      · omega
      · rw [Bytes.field_of_slice? header (by omega), Nat.add_zero]
    · use unknown
  · split at h
    · cases h
      left
      rfl
    · cases h

end OptionalHeader

namespace DataDirectory

/-- A directory that lies inside the image is read, and then those behind it. -/
theorem exists_readFrom_succ {data : Bytes} {offset : Nat} (count : Nat)
    (fits : offset + byteSize ≤ data.size) :
  ∃ rva size, data.read? 4 offset = some rva ∧ data.read? 4 (offset + 4) = some size
    ∧ readFrom data (count + 1) offset
      = (readFrom data count (offset + byteSize)).map (⟨rva, size⟩ :: ·)
  := by
  rw [byteSize] at fits
  obtain ⟨rva, hrva⟩ := Bytes.exists_read? (show offset + 4 ≤ data.size by omega)
  obtain ⟨size, hsize⟩ := Bytes.exists_read? (show offset + 4 + 4 ≤ data.size by omega)
  use rva, size, hrva, hsize
  rw [readFrom, hrva, hsize]
  cases readFrom data count (offset + byteSize) <;> rfl

/-- A directory that is cut off is reported with the end that it would have if this has 64 bits,
and stops the reader if it has more. -/
theorem readFrom_succ_of_cut {data : Bytes} {offset : Nat} (count : Nat)
    (cut : data.size < offset + byteSize) :
  readFrom data (count + 1) offset
    = if offset + byteSize < space64 then
        .error (.truncated (offset + byteSize) data.size)
      else
        .error .overflow
  := by
  have missing : data.read? 4 (offset + 4) = none := Bytes.read?_eq_none cut
  rw [readFrom, missing]
  cases data.read? 4 offset <;> rfl

/-- Directories that lie inside the image can be read. -/
theorem exists_readFrom {data : Bytes} {count offset : Nat}
    (fits : offset + count * byteSize ≤ data.size) :
  ∃ directories, readFrom data count offset = .ok directories
  := by
  induction count generalizing offset with
  | zero =>
    use []
    rfl
  | succ count ih =>
    rw [Nat.succ_mul] at fits
    obtain ⟨rva, size, -, -, hread⟩ := exists_readFrom_succ count
      (show offset + byteSize ≤ data.size by omega)
    obtain ⟨rest, hrest⟩ := ih (show offset + byteSize + count * byteSize ≤ data.size by omega)
    use ⟨rva, size⟩ :: rest
    rw [hread, hrest]
    rfl

/-- The directories of an optional header can be read if there is room for them in it. -/
theorem exists_read {data : Bytes} {offset size count fixed : Nat} {bytes : List UInt8}
    (header : data.slice? offset size = some bytes) (large : fixed ≤ size)
    (room : count ≤ (size - fixed) / byteSize) :
  ∃ directories, DataDirectory.read data (offset + fixed) count = .ok directories
  := by
  apply exists_readFrom
  have fits := (Bytes.slice?_eq_some_iff.mp header).1
  rw [byteSize] at room ⊢
  omega

end DataDirectory

/-! ### The headers from the signature on -/

namespace NtHeaders

variable {data : Bytes} {offset : Nat} {nt : NtHeaders} {error : ImageError}

theorem read_eq_ok_iff :
  NtHeaders.read data offset = .ok nt
    ↔ data.slice? offset peSignatureSize = some peSignature
      ∧ CoffHeader.read data (offset + peSignatureSize) = .ok nt.coff
      ∧ OptionalHeader.read data (offset + optionalOffset) nt.coff.optionalSize = .ok nt.optional
      ∧ nt.optional.directoryCount
        ≤ (nt.coff.optionalSize - nt.optional.width.fixedSize) / DataDirectory.byteSize
      ∧ DataDirectory.read data (offset + optionalOffset + nt.optional.width.fixedSize)
        nt.optional.directoryCount = .ok nt.directories
      ∧ nt.sectionTableOffset = offset + optionalOffset + nt.coff.optionalSize
  := by
  rw [NtHeaders.read]
  constructor
  · intro h
    obtain ⟨signature, found, h⟩ := bind_eq_ok_iff.mp h
    split at h
    · next pe =>
      subst pe
      obtain ⟨coff, hcoff, h⟩ := bind_eq_ok_iff.mp h
      obtain ⟨optional, hoptional, h⟩ := bind_eq_ok_iff.mp h
      dsimp only at h
      split at h
      · cases h
      · next room =>
        obtain ⟨directories, hdirectories, h⟩ := bind_eq_ok_iff.mp h
        cases h
        use Bytes.require_eq_ok_iff.mp found, hcoff, hoptional, Nat.le_of_not_lt room,
          hdirectories
    · cases h
  · rintro ⟨signature, hcoff, hoptional, room, hdirectories, table⟩
    apply bind_eq_ok_iff.mpr
    use peSignature, Bytes.require_eq_ok_iff.mpr signature
    rw [if_pos rfl]
    apply bind_eq_ok_iff.mpr
    use nt.coff, hcoff
    apply bind_eq_ok_iff.mpr
    use nt.optional, hoptional
    rw [if_neg (Nat.not_lt.mpr room)]
    apply bind_eq_ok_iff.mpr
    use nt.directories, hdirectories
    rw [← table]

/-- Headers that cannot be read are damaged, or the signature is another one, or the magic
number is unknown. -/
theorem of_read_eq_error (h : NtHeaders.read data offset = .error error) :
  error.isDamage = true
    ∨ error = .peSignature ∧ data.slice? offset peSignatureSize ≠ some peSignature
    ∨ ∃ magic, data.read? 2 (offset + optionalOffset) = some magic
      ∧ Width.ofMagic? magic = none ∧ error = .wrongMagic magic
  := by
  rw [NtHeaders.read] at h
  rcases bind_eq_error_iff.mp h with h | ⟨signature, found, h⟩
  · left
    apply Bytes.isDamage_of_require h
  split at h
  · rcases bind_eq_error_iff.mp h with h | ⟨coff, hcoff, h⟩
    · left
      apply Bytes.isDamage_of_require (map_eq_error_iff.mp h)
    rcases bind_eq_error_iff.mp h with h | ⟨optional, hoptional, h⟩
    · rcases OptionalHeader.of_read_eq_error h with damage | unknown
      · left
        apply damage
      · right
        right
        apply unknown
    dsimp only at h
    split at h
    · cases h
      left
      rfl
    next room =>
    -- The directories lie in the optional header, which has been read.
    obtain ⟨bytes, slice, -, large, -⟩ := OptionalHeader.read_eq_ok_iff.mp hoptional
    obtain ⟨directories, found⟩ :=
      DataDirectory.exists_read slice large (Nat.le_of_not_lt room)
    rw [found] at h
    cases h
  · next other =>
    cases h
    right
    left
    use rfl
    rw [Bytes.require_eq_ok_iff.mp found]
    intro same
    apply other (Option.some.inj same)

/-- No place in the headers has more than 64 bits, wherever they are looked for. -/
theorem read_ne_overflow :
  NtHeaders.read data offset ≠ .error .overflow
  := by
  intro h
  rcases of_read_eq_error h with damage | ⟨other, -⟩ | ⟨_, -, -, other⟩
  · cases damage
  · cases other
  · cases other

end NtHeaders

end ImageRefs
