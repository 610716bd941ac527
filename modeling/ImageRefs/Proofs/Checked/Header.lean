import ImageRefs.Proofs.Checked.Basic
import ImageRefs.Proofs.Header.Read
import ImageRefs.Section.Table
import Mathlib.Algebra.Group.Nat.Defs

/-!
# Checked headers

A reader that misses bytes reports where they would have to end and how many bytes there are.
Such a report is truthful if the bytes would end behind those that are there (`Truthful`).  The
readers keep to this in three ways: an end that has more than 64 bits is capped, a place is
computed as a plain sum behind bytes that have been read, and the reader of the data directories,
which computes the end of a directory as a plain sum wherever it is told to begin, is stopped by
the sum if it has more than 64 bits.

* Every report of a reader is truthful, whatever it is told to read, and no sum on the way to it
  has been cut off (`Checked.truncations_truthful`).
* The same theorem says when the reader of the data directories is stopped; the headers of an
  image never stop it.
-/

namespace ImageRefs

/-! ### Truthful reports -/

/-- If a reader reports that the image is cut off, it names the number of bytes that there are,
and an end behind them. -/
def Truthful {α : Type} (data : Bytes) : Except ImageError α → Prop
  | .error (.truncated expected actual) => actual = data.size ∧ data.size < expected
  | _ => True

namespace Truthful

variable {α β : Type} {data : Bytes}

/-- Whether a report is truthful does not depend on what the reader would have read. -/
theorem of_error {error : ImageError} (h : Truthful data (.error error : Except ImageError α)) :
  Truthful data (.error error : Except ImageError β)
  := by
  cases error <;> exact h

/-- A reader that goes on after another one is truthful if both are. -/
theorem bind {x : Except ImageError α} {f : α → Except ImageError β} (first : Truthful data x)
    (next : ∀ a, x = .ok a → Truthful data (f a)) :
  Truthful data (x >>= f)
  := by
  cases x with
  | error error => exact of_error first
  | ok a => apply next a rfl

theorem map {x : Except ImageError α} (h : Truthful data x) (f : α → β) :
  Truthful data (x.map f)
  := by
  cases x with
  | error error => exact of_error h
  | ok a => trivial

/-- Capped ends are truthful, since no buffer has as many bytes as there are offsets. -/
theorem require (small : data.size < 2 ^ 63) (offset size : Nat) :
  Truthful data (data.require offset size)
  := by
  rw [Bytes.require, Bytes.slice?]
  split
  · trivial
  · next missing =>
    use rfl
    split at missing
    · cases missing
    · rw [space64]
      omega

end Truthful

/-- A directory that is cut off is reported truthfully, or stops the reader. -/
theorem DataDirectory.truthful (data : Bytes) (offset count : Nat) :
  Truthful data (readFrom data count offset)
  := by
  induction count generalizing offset with
  | zero => trivial
  | succ count ih =>
    by_cases fits : offset + byteSize ≤ data.size
    · obtain ⟨rva, size, -, -, hread⟩ := exists_readFrom_succ count fits
      rw [hread]
      apply (ih _).map
    · have cut := Nat.lt_of_not_le fits
      rw [readFrom_succ_of_cut count cut]
      split
      · use rfl
      · trivial

section Readers

variable {data : Bytes} (small : data.size < 2 ^ 63)
include small

theorem DosHeader.truthful :
  Truthful data (DosHeader.read data)
  := by
  apply Truthful.bind (.require small _ _)
  intro bytes _
  split
  · trivial
  · trivial

theorem CoffHeader.truthful (offset : Nat) :
  Truthful data (CoffHeader.read data offset)
  :=
  (Truthful.require small _ _).map _

theorem OptionalHeader.truthful (offset size : Nat) :
  Truthful data (OptionalHeader.read data offset size)
  := by
  rw [OptionalHeader.read]
  split
  · trivial
  · apply Truthful.bind (.require small _ _)
    intro bytes _
    split
    · trivial
    · split
      · trivial
      · trivial

/-- Directories of which the first has an end of 64 bits do not stop the reader: behind one that
lies inside the image the next has such an end. -/
theorem DataDirectory.readFrom_ne_overflow {offset : Nat} (count : Nat)
    (first : offset + byteSize < space64) :
  readFrom data count offset ≠ .error .overflow
  := by
  have wide : 2 ^ 63 + byteSize < space64 := by decide
  intro stopped
  induction count generalizing offset with
  | zero => cases stopped
  | succ count ih =>
    by_cases fits : offset + byteSize ≤ data.size
    · obtain ⟨rva, size, -, -, hread⟩ := exists_readFrom_succ count fits
      rw [hread] at stopped
      apply ih (by omega) (map_eq_error_iff.mp stopped)
    · have cut := Nat.lt_of_not_le fits
      rw [readFrom_succ_of_cut count cut, if_pos first] at stopped
      cases stopped

theorem Section.truthful (offset count : Nat) :
  Truthful data (Section.readTable data offset count)
  :=
  (Truthful.require small _ _).map _

/-- The data directories of an optional header that has been read are there, so that no report
about them is made. -/
theorem NtHeaders.truthful (offset : Nat) :
  Truthful data (NtHeaders.read data offset)
  := by
  apply Truthful.bind (.require small _ _)
  intro signature _
  split
  · apply Truthful.bind (CoffHeader.truthful small _)
    intro coff _
    apply Truthful.bind (OptionalHeader.truthful small _ _)
    intro optional hoptional
    dsimp only
    split
    · trivial
    · next room =>
      obtain ⟨bytes, slice, -, large, -⟩ := OptionalHeader.read_eq_ok_iff.mp hoptional
      obtain ⟨directories, found⟩ :=
        DataDirectory.exists_read slice large (Nat.le_of_not_lt room)
      rw [found]
      trivial
  · trivial

end Readers

namespace Checked

/-! ### Checked readers -/

/-- `Section.readTable`, checked. -/
def sectionTable (data : Bytes) (offset count : Nat) : Checked (Except ImageError (List Section)) :=
  if count * sectionHeaderSize < space64 then
    .ok (Section.readTable data offset count)
  else
    .error .overflow

/-- The directories from the one with a given index on, of `count` directories that begin at
`offset`, checked. -/
def directoriesFrom (data : Bytes) (offset : Nat) : (count index : Nat) →
    Checked (Except ImageError (List DataDirectory))
  | 0, _ => .ok (.ok [])
  | count + 1, index => do
    let place ← sum space64 offset (index * DataDirectory.byteSize)
    let second ← sum space64 place 4
    match data.read? 4 place, data.read? 4 second with
    | some rva, some size => do
      let rest ← directoriesFrom data offset count (index + 1)
      .ok (rest.map (⟨rva, size⟩ :: ·))
    | _, _ => do
      let stop ← sum space64 place DataDirectory.byteSize
      .ok (.error (.truncated stop data.size))

/-- `DataDirectory.read`, checked. -/
def directories (data : Bytes) (offset count : Nat) :
    Checked (Except ImageError (List DataDirectory)) :=
  directoriesFrom data offset (min count DataDirectory.maxCount) 0

/-- A checked evaluation goes on with what a reader has read, or ends with its report. -/
def andThen {α β : Type} (x : Except ImageError α) (f : α → Checked (Except ImageError β)) :
    Checked (Except ImageError β) :=
  match x with
  | .error error => .ok (.error error)
  | .ok a => f a

/-- `NtHeaders.read`, checked. -/
def ntHeaders (data : Bytes) (offset : Nat) : Checked (Except ImageError NtHeaders) :=
  andThen (data.require offset peSignatureSize) fun signature =>
    if signature = peSignature then do
      let coffOffset ← sum space64 offset peSignatureSize
      andThen (CoffHeader.read data coffOffset) fun coff => do
        let start ← sum space64 coffOffset coffHeaderSize
        andThen (OptionalHeader.read data start coff.optionalSize) fun optional => do
          let room ← difference coff.optionalSize optional.width.fixedSize
          let capacity := room / DataDirectory.byteSize
          if capacity < optional.directoryCount then
            .ok (.error (.tooManyDirectories optional.directoryCount capacity))
          else do
            let first ← sum space64 start optional.width.fixedSize
            let result ← directories data first optional.directoryCount
            andThen result fun list => do
              let table ← sum space64 start coff.optionalSize
              .ok (.ok ⟨coff, optional, list, table⟩)
    else
      .ok (.error .peSignature)

theorem andThen_eq_ok {α β : Type} {x : Except ImageError α}
    {f : α → Checked (Except ImageError β)} {g : α → Except ImageError β}
    (h : ∀ a, x = .ok a → f a = .ok (g a)) :
  andThen x f = .ok (x >>= g)
  := by
  cases x with
  | error error => rfl
  | ok a => apply h a rfl

variable {data : Bytes}

/-- The size of a section table of less than `2 ^ 16` sections is no fault. -/
theorem sectionTable_eq_ok (offset : Nat) {count : Nat} (few : count < 2 ^ 16) :
  sectionTable data offset count = .ok (Section.readTable data offset count)
  := by
  apply if_pos
  calc count * sectionHeaderSize
    _ < 2 ^ 16 * sectionHeaderSize := Nat.mul_lt_mul_of_pos_right few (by decide)
    _ ≤ space64 := by decide

/-- The directories are read without a fault if the first of them has an end of 64 bits. -/
theorem directoriesFrom_eq_ok (small : data.size < 2 ^ 63) {offset index : Nat} (count : Nat)
    (first : offset + index * DataDirectory.byteSize + DataDirectory.byteSize < space64) :
  directoriesFrom data offset count index
    = .ok (DataDirectory.readFrom data count (offset + index * DataDirectory.byteSize))
  := by
  have wide : 2 ^ 63 + DataDirectory.byteSize < space64 := by decide
  have size : DataDirectory.byteSize = 4 + 4 := rfl
  induction count generalizing index with
  | zero => rfl
  | succ count ih =>
    have next : offset + (index + 1) * DataDirectory.byteSize
        = offset + index * DataDirectory.byteSize + DataDirectory.byteSize := by
      rw [Nat.succ_mul, Nat.add_assoc]
    rw [directoriesFrom, sum_eq_ok (by omega), ok_bind, sum_eq_ok (by omega), ok_bind]
    by_cases fits : offset + index * DataDirectory.byteSize + DataDirectory.byteSize ≤ data.size
    · obtain ⟨rva, size, hrva, hsize, hread⟩ := DataDirectory.exists_readFrom_succ count fits
      rw [hrva, hsize, hread, ← next]
      dsimp only
      rw [ih (by omega), ok_bind]
    · have cut := Nat.lt_of_not_le fits
      have missing : data.read? 4 (offset + index * DataDirectory.byteSize + 4) = none :=
        Bytes.read?_eq_none (by omega)
      rw [DataDirectory.readFrom_succ_of_cut count cut, if_pos first, missing]
      cases data.read? 4 (offset + index * DataDirectory.byteSize) with
      | none => rw [sum_eq_ok first, ok_bind]
      | some rva => rw [sum_eq_ok first, ok_bind]

/-- The directories are read without a fault if there are none or the first of them has an end
of 64 bits, and the reader is not stopped. -/
theorem directories_eq_ok (small : data.size < 2 ^ 63) {offset : Nat} (count : Nat)
    (first : count = 0 ∨ offset + DataDirectory.byteSize < space64) :
  directories data offset count = .ok (DataDirectory.read data offset count)
    ∧ DataDirectory.read data offset count ≠ .error .overflow
  := by
  rcases first with rfl | first
  · use rfl, nofun
  · rw [directories, directoriesFrom_eq_ok small _ (by simpa using first), Nat.zero_mul,
      Nat.add_zero, DataDirectory.read]
    use rfl, DataDirectory.readFrom_ne_overflow small _ first

/-- If the first directory has no end of 64 bits, computing it is a fault, and the reader is
stopped there. -/
theorem directories_eq_error (small : data.size < 2 ^ 63) {offset count : Nat}
    (present : count ≠ 0) (last : space64 ≤ offset + DataDirectory.byteSize) :
  directories data offset count = .error .overflow
    ∧ DataDirectory.read data offset count = .error .overflow
  := by
  have wide : 2 ^ 63 + DataDirectory.byteSize < space64 := by decide
  have size : DataDirectory.byteSize = 4 + 4 := rfl
  obtain ⟨rest, hrest⟩ : ∃ rest, min count DataDirectory.maxCount = rest + 1 := by
    apply Nat.exists_eq_succ_of_ne_zero
    rw [DataDirectory.maxCount]
    omega
  rw [directories, DataDirectory.read, hrest]
  constructor
  · rw [directoriesFrom, Nat.zero_mul]
    by_cases top : offset < space64
    · rw [sum_eq_ok top, ok_bind, Nat.add_zero]
      by_cases second : offset + 4 < space64
      · have missing : data.read? 4 (offset + 4) = none := Bytes.read?_eq_none (by omega)
        rw [sum_eq_ok second, ok_bind, missing, sum_eq_error last]
        cases data.read? 4 offset <;> rfl
      · rw [sum_eq_error (Nat.le_of_not_lt second)]
        rfl
    · rw [sum_eq_error (Nat.le_of_not_lt top)]
      rfl
  · rw [DataDirectory.readFrom_succ_of_cut _ (by omega), if_neg (Nat.not_lt.mpr last)]

/-- The headers from the signature on are read without a fault, since they are looked for behind
bytes that have been read. -/
theorem ntHeaders_eq_ok (small : data.size < 2 ^ 63) (offset : Nat) :
  ntHeaders data offset = .ok (NtHeaders.read data offset)
  := by
  have wide : 2 ^ 63 + DataDirectory.byteSize < space64 := by decide
  apply andThen_eq_ok
  intro signature hsignature
  have signatureFits := (Bytes.slice?_eq_some_iff.mp (Bytes.require_eq_ok_iff.mp hsignature)).1
  split
  · rw [sum_eq_ok (by omega), ok_bind]
    apply andThen_eq_ok
    intro coff hcoff
    obtain ⟨bytes, slice, -⟩ := CoffHeader.read_eq_ok_iff.mp hcoff
    have coffFits := (Bytes.slice?_eq_some_iff.mp slice).1
    rw [sum_eq_ok (by omega), ok_bind]
    apply andThen_eq_ok
    intro optional hoptional
    obtain ⟨bytes, slice, -, large, -⟩ := OptionalHeader.read_eq_ok_iff.mp hoptional
    have optionalFits := (Bytes.slice?_eq_some_iff.mp slice).1
    rw [difference_eq_ok large, ok_bind]
    dsimp only
    split
    · rfl
    · rw [sum_eq_ok (by omega), ok_bind, (directories_eq_ok small _ (by omega)).1, ok_bind]
      apply andThen_eq_ok
      intro list _
      rw [sum_eq_ok (by omega), ok_bind]
      rfl
  · rfl

/-- A reader that reports that the image is cut off names the number of bytes that there are and
an end behind them, and no sum that it computes on the way is cut off to 64 bits.

* The DOS header, the COFF header and the optional header are looked for at given places, and
  their ends are capped.
* The headers from the signature on, and tables of less than `2 ^ 16` sections, are looked for
  without a sum of more than 64 bits.
* So are the data directories if there are none or the first of them has an end of 64 bits.  Else
  computing this end is a fault, and the reader is stopped by it and reports nothing. -/
theorem truncations_truthful {data : Bytes} (small : data.size < 2 ^ 63) :
  Truthful data (DosHeader.read data)
    ∧ (∀ offset, Truthful data (CoffHeader.read data offset))
    ∧ (∀ offset size, Truthful data (OptionalHeader.read data offset size))
    ∧ (∀ offset, Truthful data (NtHeaders.read data offset)
      ∧ ntHeaders data offset = .ok (NtHeaders.read data offset)
      ∧ NtHeaders.read data offset ≠ .error .overflow)
    ∧ (∀ offset count, count < 2 ^ 16 →
      Truthful data (Section.readTable data offset count)
        ∧ sectionTable data offset count = .ok (Section.readTable data offset count))
    ∧ ∀ offset count, Truthful data (DataDirectory.read data offset count)
      ∧ if count = 0 ∨ offset + 8 < space64 then
          directories data offset count = .ok (DataDirectory.read data offset count)
            ∧ DataDirectory.read data offset count ≠ .error .overflow
        else
          directories data offset count = .error .overflow
            ∧ DataDirectory.read data offset count = .error .overflow
  := by
  use DosHeader.truthful small, CoffHeader.truthful small, OptionalHeader.truthful small
  and_intros
  · intro offset
    use NtHeaders.truthful small offset, ntHeaders_eq_ok small offset
    apply NtHeaders.read_ne_overflow
  · intro offset count few
    use Section.truthful small offset count, sectionTable_eq_ok offset few
  · intro offset count
    use DataDirectory.truthful data offset _
    split
    · next first => apply directories_eq_ok small count first
    · next last =>
      rw [not_or, Nat.not_lt] at last
      apply directories_eq_error small last.1 last.2

/-- An image that ends behind the signature `MZ`: its headers are reported with the end that they
would have, which is capped for those that are looked for at the largest offsets.  A directory
there is reported with its end up to the largest one, and stops the reader behind it. -/
theorem truncations_truthful_short :
  (DosHeader.read #[0x4D, 0x5A] = .error (.truncated 64 2)
      ∧ Truthful #[0x4D, 0x5A] (DosHeader.read #[0x4D, 0x5A]))
    ∧ NtHeaders.read #[0x4D, 0x5A] (2 ^ 64 - 2) = .error (.truncated (2 ^ 64 - 1) 2)
    ∧ ntHeaders #[0x4D, 0x5A] (2 ^ 64 - 2) = .ok (.error (.truncated (2 ^ 64 - 1) 2))
    ∧ directories #[0x4D, 0x5A] (2 ^ 64 - 9) 1 = .ok (.error (.truncated (2 ^ 64 - 1) 2))
    ∧ DataDirectory.read #[0x4D, 0x5A] (2 ^ 64 - 8) 1 = .error .overflow
  := by
  obtain ⟨dos, -, -, nt, -, all⟩ := @truncations_truthful #[0x4D, 0x5A] (by decide)
  have first := (all (2 ^ 64 - 9) 1).2
  rw [if_pos (by decide)] at first
  have last := (all (2 ^ 64 - 8) 1).2
  rw [if_neg (by decide)] at last
  refine ⟨⟨by decide, dos⟩, by decide, ?_, ?_, last.2⟩
  · rw [(nt _).2.1]
    decide
  · rw [first.1]
    decide

end Checked

end ImageRefs
