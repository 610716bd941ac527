import ImageRefs.Proofs.Header.Read
import ImageRefs.Proofs.Section.Table
import Mathlib.Algebra.BigOperators.Group.List.Basic
import Mathlib.Algebra.GroupWithZero.Nat

/-!
# The format of headers

Each header is stored as a sequence of parts: the fields that are read, in little-endian order,
and between them bytes that no reader names.  The encoding of the headers of an image puts them
one behind another, and the readers get back what was encoded, whatever the unnamed bytes are
and whatever stands behind the headers (`Headers.read_encode`).

* A part stands behind those before it, so its offset is the sum of their sizes
  (`take_drop_flatten`, `field_flatten`).
* For each header, `ofBytes_parts` says that its fields are read back from its parts, and
  `read_of_holds` that the reader finds them in a buffer that holds these.
* Data directories and section headers are read back from their sequences by induction
  (`DataDirectory.readFrom_of_holds`, `Section.listOfBytes_encodeAll`).
* The headers stand behind each other in a buffer that begins with all of them
  (`Headers.Valid.places`).
-/

namespace ImageRefs

/-! ### Parts -/

/-- A part of a sequence of parts begins where the sizes of the parts before it add up to. -/
theorem take_drop_flatten {parts : List (List UInt8)} {part : List UInt8} {i : Nat}
    (h : parts[i]? = some part) :
  (parts.flatten.drop ((parts.map List.length).take i).sum).take part.length = part
  := by
  obtain ⟨hi, rfl⟩ := List.getElem?_eq_some_iff.mp h
  rw [List.drop_sum_flatten, List.drop_eq_getElem_cons hi, List.flatten_cons, List.take_left]

/-- A number that is one of the parts of a sequence is read from where that part begins. -/
theorem field_flatten {parts : List (List UInt8)} {width value offset : Nat} (i : Nat)
    (h : parts[i]? = some (toLE width value)) (fits : value < byteCapacity width)
    (place : ((parts.map List.length).take i).sum = offset) :
  field parts.flatten offset width = value
  := by
  have stored := take_drop_flatten h
  rw [length_toLE, place] at stored
  rw [field, stored, ofLE_toLE, Nat.mod_eq_of_lt fits]

/-- A buffer holds a list of bytes from an offset on. -/
def Bytes.Holds (data : Bytes) (offset : Nat) (bytes : List UInt8) : Prop :=
  data.slice? offset bytes.length = some bytes

namespace Bytes

variable {data : Bytes} {offset : Nat}

/-- A buffer holds two lists of bytes one behind the other if it holds both of them, the second
where the first ends. -/
theorem holds_append_iff {xs ys : List UInt8} :
  data.Holds offset (xs ++ ys) ↔ data.Holds offset xs ∧ data.Holds (offset + xs.length) ys
  := by
  simp only [Holds, slice?_eq_some_iff, List.length_append, List.take_add, List.drop_drop]
  constructor
  · rintro ⟨fits, same⟩
    have hlength : xs.length = ((data.toList.drop offset).take xs.length).length := by
      simp only [List.length_take, List.length_drop, Array.length_toList]
      omega
    obtain ⟨hxs, hys⟩ := List.append_inj same hlength
    and_intros
    · omega
    · apply hxs
    · omega
    · apply hys
  · rintro ⟨⟨-, hxs⟩, fits, hys⟩
    rw [← hxs, ← hys]
    use by omega

/-- A buffer that holds the bytes of a number has it as a field. -/
theorem Holds.read? {width value : Nat} (h : data.Holds offset (toLE width value))
    (fits : value < byteCapacity width) :
  data.read? width offset = some value
  := by
  rw [Holds, length_toLE] at h
  rw [Bytes.read?, h, Option.map_some, ofLE_toLE, Nat.mod_eq_of_lt fits]

/-- A buffer holds its own bytes. -/
theorem holds_toArray (bytes : List UInt8) :
  Holds bytes.toArray 0 bytes
  := by
  rw [Holds, slice?_eq_some_iff]
  simp

end Bytes

/-! ### Single headers -/

namespace DosHeader

/-- The parts of a DOS header. -/
def parts (ntOffset : Nat) (unnamed : Vector UInt8 58) : List (List UInt8) :=
  [toLE 2 dosSignature, unnamed.toList, toLE 4 ntOffset]

@[simp]
theorem length_parts (ntOffset : Nat) (unnamed : Vector UInt8 58) :
  (parts ntOffset unnamed).flatten.length = dosHeaderSize
  := by
  simp [parts, dosHeaderSize]

/-- A DOS header that a buffer begins with is read from it. -/
theorem read_of_holds {data : Bytes} {ntOffset : Nat} {unnamed : Vector UInt8 58}
    (fits : ntOffset < space32) (h : data.Holds 0 (parts ntOffset unnamed).flatten) :
  DosHeader.read data = .ok ⟨dosSignature, ntOffset⟩
  := by
  have hsignature : field (parts ntOffset unnamed).flatten 0 2 = dosSignature :=
    field_flatten 0 rfl (by decide) rfl
  have hoffset : field (parts ntOffset unnamed).flatten ntOffsetOffset 4 = ntOffset :=
    field_flatten 2 rfl fits (by simp [parts, ntOffsetOffset])
  rw [Bytes.Holds, length_parts] at h
  apply read_eq_ok_iff.mpr
  use (parts ntOffset unnamed).flatten, h, hsignature
  rw [hoffset]

end DosHeader

namespace CoffHeader

/-- The fields of a COFF header fit in their places, and the machine is the one of a code. -/
structure Valid (h : CoffHeader) (machineCode : Nat) : Prop where
  code : machineCode < byteCapacity 2
  machine : h.machine = Machine.ofCode machineCode
  sectionCount : h.sectionCount < byteCapacity 2
  timestamp : h.timestamp < space32
  optionalSize : h.optionalSize < byteCapacity 2
  characteristics : h.characteristics < byteCapacity 2

instance (h : CoffHeader) (machineCode : Nat) : Decidable (h.Valid machineCode) :=
  decidable_of_iff (machineCode < byteCapacity 2 ∧ h.machine = Machine.ofCode machineCode
      ∧ h.sectionCount < byteCapacity 2 ∧ h.timestamp < space32
      ∧ h.optionalSize < byteCapacity 2 ∧ h.characteristics < byteCapacity 2)
    ⟨fun ⟨code, machine, count, stamp, size, flags⟩ => ⟨code, machine, count, stamp, size, flags⟩,
      fun ⟨code, machine, count, stamp, size, flags⟩ => ⟨code, machine, count, stamp, size, flags⟩⟩

/-- The parts of a COFF header for the machine with a given code. -/
def parts (h : CoffHeader) (machineCode : Nat) (unnamed : Vector UInt8 8) : List (List UInt8) :=
  [toLE 2 machineCode, toLE 2 h.sectionCount, toLE 4 h.timestamp, unnamed.toList,
    toLE 2 h.optionalSize, toLE 2 h.characteristics]

variable {h : CoffHeader} {machineCode : Nat}

@[simp]
theorem length_parts (unnamed : Vector UInt8 8) :
  (h.parts machineCode unnamed).flatten.length = coffHeaderSize
  := by
  simp [parts, coffHeaderSize]

/-- A COFF header is read from its bytes. -/
theorem Valid.ofBytes_parts (valid : h.Valid machineCode) (unnamed : Vector UInt8 8) :
  ofBytes (h.parts machineCode unnamed).flatten = h
  := by
  have hcode : field (h.parts machineCode unnamed).flatten 0 2 = machineCode :=
    field_flatten 0 rfl valid.code rfl
  have hcount : field (h.parts machineCode unnamed).flatten 2 2 = h.sectionCount :=
    field_flatten 1 rfl valid.sectionCount (by simp [parts])
  have hstamp : field (h.parts machineCode unnamed).flatten 4 4 = h.timestamp :=
    field_flatten 2 rfl valid.timestamp (by simp [parts])
  have hsize : field (h.parts machineCode unnamed).flatten 16 2 = h.optionalSize :=
    field_flatten 4 rfl valid.optionalSize (by simp [parts])
  have hflags : field (h.parts machineCode unnamed).flatten 18 2 = h.characteristics :=
    field_flatten 5 rfl valid.characteristics (by simp [parts])
  rw [ofBytes, hcode, hcount, hstamp, hsize, hflags, ← valid.machine]

/-- A COFF header that a buffer holds is read from it. -/
theorem Valid.read_of_holds (valid : h.Valid machineCode) {data : Bytes} {offset : Nat}
    {unnamed : Vector UInt8 8} (stored : data.Holds offset (h.parts machineCode unnamed).flatten) :
  CoffHeader.read data offset = .ok h
  := by
  rw [Bytes.Holds, length_parts] at stored
  apply read_eq_ok_iff.mpr
  use (h.parts machineCode unnamed).flatten, stored, valid.ofBytes_parts unnamed

end CoffHeader

namespace OptionalHeader

/-- The fields of an optional header fit in their places. -/
structure Valid (h : OptionalHeader) : Prop where
  entryPoint : h.entryPoint < space32
  imageBase : h.imageBase < h.width.modulus
  sectionAlignment : h.sectionAlignment < space32
  fileAlignment : h.fileAlignment < space32
  sizeOfImage : h.sizeOfImage < space32
  sizeOfHeaders : h.sizeOfHeaders < space32
  directoryCount : h.directoryCount < space32

instance (h : OptionalHeader) : Decidable h.Valid :=
  decidable_of_iff (h.entryPoint < space32 ∧ h.imageBase < h.width.modulus
      ∧ h.sectionAlignment < space32 ∧ h.fileAlignment < space32
      ∧ h.sizeOfImage < space32 ∧ h.sizeOfHeaders < space32 ∧ h.directoryCount < space32)
    ⟨fun ⟨entry, base, memory, file, image, headers, count⟩ =>
        ⟨entry, base, memory, file, image, headers, count⟩,
      fun ⟨entry, base, memory, file, image, headers, count⟩ =>
        ⟨entry, base, memory, file, image, headers, count⟩⟩

/-- The bytes of an optional header of a width that no reader names, in the order in which they
are stored: versions and sizes, bases of code and data, version numbers of the system, and
limits of the stack and the heap.  An image base of 64 bits takes the place of the base of the
data. -/
structure Unnamed (width : Width) where
  sizes : Vector UInt8 14
  bases : Vector UInt8 (12 - width.bytes)
  versions : Vector UInt8 16
  limits : Vector UInt8 (width.fixedSize - 68)

/-- The parts of the fixed part of an optional header. -/
def parts (h : OptionalHeader) (unnamed : Unnamed h.width) : List (List UInt8) :=
  [toLE 2 h.width.magic, unnamed.sizes.toList, toLE 4 h.entryPoint, unnamed.bases.toList,
    toLE h.width.bytes h.imageBase, toLE 4 h.sectionAlignment, toLE 4 h.fileAlignment,
    unnamed.versions.toList, toLE 4 h.sizeOfImage, toLE 4 h.sizeOfHeaders,
    unnamed.limits.toList, toLE 4 h.directoryCount]

/-- The sizes of the parts of the fixed part of an optional header. -/
def partSizes (width : Width) : List Nat :=
  [2, 14, 4, 12 - width.bytes, width.bytes, 4, 4, 16, 4, 4, width.fixedSize - 68, 4]

variable {h : OptionalHeader} (unnamed : Unnamed h.width)

theorem map_length_parts :
  (h.parts unnamed).map List.length = partSizes h.width
  := by
  simp [parts, partSizes]

@[simp]
theorem length_parts :
  (h.parts unnamed).flatten.length = h.width.fixedSize
  := by
  rw [List.length_flatten, map_length_parts]
  cases h.width <;> rfl

/-- A number of the fixed part is read from where it begins, whatever stands behind. -/
theorem field_parts {width value offset : Nat} (i : Nat)
    (stored : (h.parts unnamed)[i]? = some (toLE width value)) (fits : value < byteCapacity width)
    (place : ((partSizes h.width).take i).sum = offset) (rest : List UInt8) :
  field ((h.parts unnamed).flatten ++ rest) offset width = value
  := by
  have last : (h.parts unnamed).flatten ++ rest = (h.parts unnamed ++ [rest]).flatten := by
    simp
  obtain ⟨hi, -⟩ := List.getElem?_eq_some_iff.mp stored
  rw [last]
  apply field_flatten i
  · rw [List.getElem?_append_left hi, stored]
  · apply fits
  · rw [List.map_append, List.take_append_of_le_length, map_length_parts, place]
    rw [List.length_map]
    exact Nat.le_of_lt hi

/-- The image base ends at the same place in both widths. -/
theorem ofBytes_eq (width : Width) (bytes : List UInt8) :
  ofBytes width bytes
    = ⟨width, field bytes 16 4, field bytes (32 - width.bytes) width.bytes, field bytes 32 4,
      field bytes 36 4, field bytes 56 4, field bytes 60 4,
      field bytes (width.fixedSize - 4) 4⟩
  := by
  cases width <;> rfl

/-- An optional header is read from its bytes, whatever stands behind its fixed part. -/
theorem Valid.ofBytes_parts (valid : h.Valid) (rest : List UInt8) :
  ofBytes h.width ((h.parts unnamed).flatten ++ rest) = h
  := by
  have hbase : h.imageBase < byteCapacity h.width.bytes := by
    rw [Width.byteCapacity_bytes]
    exact valid.imageBase
  rw [ofBytes_eq,
    field_parts unnamed 2 rfl valid.entryPoint (by rfl),
    field_parts unnamed 4 rfl hbase (by cases h.width <;> rfl),
    field_parts unnamed 5 rfl valid.sectionAlignment (by cases h.width <;> rfl),
    field_parts unnamed 6 rfl valid.fileAlignment (by cases h.width <;> rfl),
    field_parts unnamed 8 rfl valid.sizeOfImage (by cases h.width <;> rfl),
    field_parts unnamed 9 rfl valid.sizeOfHeaders (by cases h.width <;> rfl),
    field_parts unnamed 11 rfl valid.directoryCount (by cases h.width <;> rfl)]

/-- An optional header is read from a buffer that holds it and, behind it, the rest of the bytes
that it is declared with. -/
theorem Valid.read_of_holds (valid : h.Valid) {data : Bytes} {offset size : Nat}
    {rest : List UInt8} (hsize : h.width.fixedSize + rest.length = size)
    (stored : data.Holds offset ((h.parts unnamed).flatten ++ rest)) :
  OptionalHeader.read data offset size = .ok h
  := by
  have hmagic : field ((h.parts unnamed).flatten ++ rest) 0 2 = h.width.magic :=
    field_parts unnamed 0 rfl (by cases h.width <;> decide) rfl rest
  rw [Bytes.Holds, List.length_append, length_parts, hsize] at stored
  apply read_eq_ok_iff.mpr
  use (h.parts unnamed).flatten ++ rest, stored, hmagic, Nat.le.intro hsize,
    valid.ofBytes_parts unnamed rest

end OptionalHeader

/-! ### Data directories -/

namespace DataDirectory

/-- The fields of a data directory fit in their places. -/
structure Valid (d : DataDirectory) : Prop where
  rva : d.rva < space32
  size : d.size < space32

instance (d : DataDirectory) : Decidable d.Valid :=
  decidable_of_iff (d.rva < space32 ∧ d.size < space32)
    ⟨fun ⟨rva, size⟩ => ⟨rva, size⟩, fun ⟨rva, size⟩ => ⟨rva, size⟩⟩

/-- The bytes of a list of data directories. -/
def encodeAll (directories : List DataDirectory) : List UInt8 :=
  directories.flatMap fun d => toLE 4 d.rva ++ toLE 4 d.size

theorem encodeAll_cons (d : DataDirectory) (directories : List DataDirectory) :
  encodeAll (d :: directories) = toLE 4 d.rva ++ (toLE 4 d.size ++ encodeAll directories)
  := by
  rw [encodeAll, List.flatMap_cons, List.append_assoc]
  rfl

@[simp]
theorem length_encodeAll (directories : List DataDirectory) :
  (encodeAll directories).length = directories.length * byteSize
  := by
  induction directories with
  | nil => rfl
  | cons d directories ih =>
    simp only [encodeAll_cons, List.length_append, length_toLE, ih, List.length_cons, byteSize]
    omega

/-- The first directories of a list that a buffer holds are read from it. -/
theorem readFrom_of_holds {directories : List DataDirectory} (valid : ∀ d ∈ directories, d.Valid)
    {data : Bytes} {offset count : Nat} (enough : count ≤ directories.length)
    (stored : data.Holds offset (encodeAll directories)) :
  readFrom data count offset = .ok (directories.take count)
  := by
  induction directories generalizing offset count with
  | nil =>
    obtain rfl := Nat.le_zero.mp enough
    rfl
  | cons d directories ih =>
    rw [List.forall_mem_cons] at valid
    simp only [encodeAll_cons, Bytes.holds_append_iff, length_toLE] at stored
    obtain ⟨rva, size, others⟩ := stored
    cases count with
    | zero => rfl
    | succ count =>
      rw [readFrom, rva.read? valid.1.rva, size.read? valid.1.size]
      apply bind_eq_ok_iff.mpr
      use directories.take count, ih valid.2 (Nat.le_of_succ_le_succ enough) others
      rfl

end DataDirectory

/-! ### Section headers -/

namespace Section

/-- The name of a section has eight bytes, and its other fields fit in their places. -/
structure Valid (s : Section) : Prop where
  rawName : s.rawName.length = 8
  virtualSize : s.virtualSize < space32
  virtualAddress : s.virtualAddress < space32
  rawSize : s.rawSize < space32
  rawOffset : s.rawOffset < space32
  characteristics : s.characteristics < space32

instance (s : Section) : Decidable s.Valid :=
  decidable_of_iff (s.rawName.length = 8 ∧ s.virtualSize < space32 ∧ s.virtualAddress < space32
      ∧ s.rawSize < space32 ∧ s.rawOffset < space32 ∧ s.characteristics < space32)
    ⟨fun ⟨name, memory, rva, size, place, flags⟩ => ⟨name, memory, rva, size, place, flags⟩,
      fun ⟨name, memory, rva, size, place, flags⟩ => ⟨name, memory, rva, size, place, flags⟩⟩

/-- The parts of a section header. -/
def parts (s : Section) (unnamed : Vector UInt8 12) : List (List UInt8) :=
  [s.rawName, toLE 4 s.virtualSize, toLE 4 s.virtualAddress, toLE 4 s.rawSize,
    toLE 4 s.rawOffset, unnamed.toList, toLE 4 s.characteristics]

/-- The bytes of a section table, each section with the bytes of its header that no reader
names. -/
def encodeAll (table : List (Section × Vector UInt8 12)) : List UInt8 :=
  table.flatMap fun entry => (entry.1.parts entry.2).flatten

theorem encodeAll_cons (s : Section) (unnamed : Vector UInt8 12)
    (table : List (Section × Vector UInt8 12)) :
  encodeAll ((s, unnamed) :: table) = (s.parts unnamed).flatten ++ encodeAll table
  := rfl

theorem Valid.length_parts {s : Section} (valid : s.Valid) (unnamed : Vector UInt8 12) :
  (s.parts unnamed).flatten.length = sectionHeaderSize
  := by
  simp [parts, valid.rawName, sectionHeaderSize]

/-- A section header is read from its bytes. -/
theorem Valid.ofBytes_parts {s : Section} (valid : s.Valid) (unnamed : Vector UInt8 12) :
  ofBytes (s.parts unnamed).flatten = s
  := by
  have hname : (s.parts unnamed).flatten.take 8 = s.rawName :=
    List.take_left' valid.rawName
  have hvirtualSize : field (s.parts unnamed).flatten 8 4 = s.virtualSize :=
    field_flatten 1 rfl valid.virtualSize (by simp [parts, valid.rawName])
  have hvirtualAddress : field (s.parts unnamed).flatten 12 4 = s.virtualAddress :=
    field_flatten 2 rfl valid.virtualAddress (by simp [parts, valid.rawName])
  have hrawSize : field (s.parts unnamed).flatten 16 4 = s.rawSize :=
    field_flatten 3 rfl valid.rawSize (by simp [parts, valid.rawName])
  have hrawOffset : field (s.parts unnamed).flatten 20 4 = s.rawOffset :=
    field_flatten 4 rfl valid.rawOffset (by simp [parts, valid.rawName])
  have hflags : field (s.parts unnamed).flatten 36 4 = s.characteristics :=
    field_flatten 6 rfl valid.characteristics (by simp [parts, valid.rawName])
  rw [ofBytes, hname, hvirtualSize, hvirtualAddress, hrawSize, hrawOffset, hflags]

variable {table : List (Section × Vector UInt8 12)} (valid : ∀ entry ∈ table, entry.1.Valid)
include valid

theorem length_encodeAll :
  (encodeAll table).length = table.length * sectionHeaderSize
  := by
  induction table with
  | nil => rfl
  | cons entry table ih =>
    rw [List.forall_mem_cons] at valid
    rw [encodeAll_cons, List.length_append, valid.1.length_parts, ih valid.2, List.length_cons,
      Nat.succ_mul, Nat.add_comm]

/-- The section headers of a table are read back from its bytes. -/
theorem listOfBytes_encodeAll :
  listOfBytes table.length (encodeAll table) = table.map Prod.fst
  := by
  induction table with
  | nil => rfl
  | cons entry table ih =>
    rw [List.forall_mem_cons] at valid
    have hsize := valid.1.length_parts entry.2
    rw [List.length_cons, listOfBytes, encodeAll_cons, List.take_left' hsize,
      List.drop_left' hsize, valid.1.ofBytes_parts, ih valid.2, List.map_cons]

/-- A section table that a buffer holds is read from it. -/
theorem readTable_of_holds {data : Bytes} {offset : Nat}
    (stored : data.Holds offset (encodeAll table)) :
  readTable data offset table.length = .ok (table.map Prod.fst)
  := by
  rw [Bytes.Holds, length_encodeAll valid] at stored
  apply readTable_eq_ok_iff.mpr
  use encodeAll table, stored, listOfBytes_encodeAll valid

end Section

/-! ### All headers -/

/-- What the headers of an image say, with the code that stands for the machine. -/
structure Headers where
  ntOffset : Nat
  machineCode : Nat
  coff : CoffHeader
  optional : OptionalHeader
  directories : List DataDirectory
  sections : List Section

namespace Headers

/-- The fields of all headers fit in their places, the counts are those of the lists, and the
optional header has room for its fixed part and the data directories. -/
structure Valid (h : Headers) : Prop where
  dosHeader : dosHeaderSize ≤ h.ntOffset
  ntOffset : h.ntOffset < space32
  coff : h.coff.Valid h.machineCode
  optional : h.optional.Valid
  directories : ∀ d ∈ h.directories, d.Valid
  sections : ∀ s ∈ h.sections, s.Valid
  directoryCount : h.optional.directoryCount = h.directories.length
  sectionCount : h.coff.sectionCount = h.sections.length
  fixedPart : h.optional.width.fixedSize ≤ h.coff.optionalSize
  room : h.directories.length
    ≤ (h.coff.optionalSize - h.optional.width.fixedSize) / DataDirectory.byteSize

/-- The bytes of headers that no reader names: those between the fields, those between the DOS
header and the signature, and those of the optional header behind its directories. -/
structure Unnamed (h : Headers) where
  dos : Vector UInt8 58
  stub : Vector UInt8 (h.ntOffset - dosHeaderSize)
  coff : Vector UInt8 8
  optional : OptionalHeader.Unnamed h.optional.width
  padding : Vector UInt8 (h.coff.optionalSize - h.optional.width.fixedSize
    - h.directories.length * DataDirectory.byteSize)
  sections : Vector (Vector UInt8 12) h.sections.length

/-- The bytes of the optional header: its fixed part, the data directories, and what fills it
up to its declared size. -/
def encodeOptional (h : Headers) (unnamed : h.Unnamed) : List UInt8 :=
  (h.optional.parts unnamed.optional).flatten
    ++ (DataDirectory.encodeAll h.directories ++ unnamed.padding.toList)

/-- The bytes of the headers of an image. -/
def encode (h : Headers) (unnamed : h.Unnamed) : List UInt8 :=
  (DosHeader.parts h.ntOffset unnamed.dos).flatten ++ (unnamed.stub.toList ++ (peSignature
    ++ ((h.coff.parts h.machineCode unnamed.coff).flatten ++ (h.encodeOptional unnamed
      ++ Section.encodeAll (h.sections.zip unnamed.sections.toList)))))

section Valid

variable {h : Headers} (valid : h.Valid) (unnamed : h.Unnamed)
include valid

/-- What stands behind the fixed part fills the optional header. -/
theorem Valid.length_behind :
  h.optional.width.fixedSize
      + (DataDirectory.encodeAll h.directories ++ unnamed.padding.toList).length
    = h.coff.optionalSize
  := by
  have room := Nat.mul_le_of_le_div _ _ _ valid.room
  have fixedPart := valid.fixedPart
  simp only [List.length_append, DataDirectory.length_encodeAll, Vector.length_toList]
  omega

/-- Where each header stands in a buffer that begins with all of them. -/
theorem Valid.places {data : Bytes} (stored : data.Holds 0 (h.encode unnamed)) :
  data.Holds 0 (DosHeader.parts h.ntOffset unnamed.dos).flatten
    ∧ data.Holds h.ntOffset peSignature
    ∧ data.Holds (h.ntOffset + peSignatureSize)
        (h.coff.parts h.machineCode unnamed.coff).flatten
    ∧ data.Holds (h.ntOffset + optionalOffset) (h.encodeOptional unnamed)
    ∧ data.Holds (h.ntOffset + optionalOffset + h.coff.optionalSize)
        (Section.encodeAll (h.sections.zip unnamed.sections.toList))
  := by
  have hstub : 0 + dosHeaderSize + (h.ntOffset - dosHeaderSize) = h.ntOffset := by
    rw [Nat.zero_add, Nat.add_sub_of_le valid.dosHeader]
  have hsignature : peSignature.length = peSignatureSize := rfl
  have hoptional : (h.encodeOptional unnamed).length = h.coff.optionalSize := by
    rw [encodeOptional, List.length_append, OptionalHeader.length_parts,
      valid.length_behind unnamed]
  simp only [encode, Bytes.holds_append_iff, DosHeader.length_parts, Vector.length_toList, hstub,
    hsignature, CoffHeader.length_parts, hoptional] at stored
  obtain ⟨dos, -, signature, coff, optional, table⟩ := stored
  use dos, signature, coff, optional, table

end Valid

/-- Headers are read back from their bytes, whatever stands in the places that no reader names
and behind the headers.  Of the data directories only the first sixteen are kept. -/
theorem read_encode {h : Headers} (valid : h.Valid) (unnamed : h.Unnamed) (rest : List UInt8) :
  DosHeader.read (h.encode unnamed ++ rest).toArray = .ok ⟨dosSignature, h.ntOffset⟩
    ∧ NtHeaders.read (h.encode unnamed ++ rest).toArray h.ntOffset
      = .ok ⟨h.coff, h.optional, h.directories.take 16, h.ntOffset + 24 + h.coff.optionalSize⟩
    ∧ Section.readTable (h.encode unnamed ++ rest).toArray
        (h.ntOffset + 24 + h.coff.optionalSize) h.sections.length
      = .ok h.sections
  := by
  have whole := Bytes.holds_toArray (h.encode unnamed ++ rest)
  generalize (h.encode unnamed ++ rest).toArray = data at whole
  obtain ⟨dos, signature, coff, optional, table⟩ :=
    valid.places unnamed (Bytes.holds_append_iff.mp whole).1
  rw [encodeOptional] at optional
  have behind := (Bytes.holds_append_iff.mp optional).2
  rw [OptionalHeader.length_parts] at behind
  have directories := (Bytes.holds_append_iff.mp behind).1
  and_intros
  · apply DosHeader.read_of_holds valid.ntOffset dos
  · apply NtHeaders.read_eq_ok_iff.mpr
    and_intros
    · apply signature
    · apply valid.coff.read_of_holds coff
    · apply valid.optional.read_of_holds _ (valid.length_behind unnamed) optional
    · rw [valid.directoryCount]
      apply valid.room
    · rw [DataDirectory.read, valid.directoryCount]
      -- There may be fewer directories than count: then all of them are read.
      have first : h.directories.take 16
          = h.directories.take (min h.directories.length DataDirectory.maxCount) := by
        rw [DataDirectory.maxCount, Nat.min_comm, ← List.take_take, List.take_length]
      rw [first]
      apply DataDirectory.readFrom_of_holds valid.directories (Nat.min_le_left _ _)
        directories
    · rfl
  · have names : (h.sections.zip unnamed.sections.toList).map Prod.fst = h.sections :=
      List.map_fst_zip (by simp)
    have count : (h.sections.zip unnamed.sections.toList).length = h.sections.length := by
      simp
    have entries : ∀ entry ∈ h.sections.zip unnamed.sections.toList, entry.1.Valid := by
      intro entry mem
      apply valid.sections _ (List.of_mem_zip mem).1
    have read := Section.readTable_of_holds entries table
    rw [names, count] at read
    apply read

/-- Headers of 64 bits with one more data directory than counts, and four bytes between the DOS
header and the signature. -/
def crowded : Headers where
  ntOffset := 0x44
  machineCode := 0x8664
  coff := ⟨.x86_64, 1, 0x5F5E0FF, 252, 0x22⟩
  optional := ⟨.bits64, 0x1000, 0x140000000, 0x1000, 0x200, 0x3000, 0x200, 17⟩
  directories := (List.range 17).map fun i => ⟨0x2000 + 16 * i, 16⟩
  sections := [⟨[0x2E, 0x74, 0x65, 0x78, 0x74, 0, 0, 0], 0x1000, 0x1000, 0x200, 0x200, 0x60000020⟩]

/-- These headers with `0xCC` in every place that no reader names, and one more such byte. -/
def crowdedBytes : Bytes :=
  (crowded.encode ⟨.replicate _ 0xCC, .replicate _ 0xCC, .replicate _ 0xCC,
    ⟨.replicate _ 0xCC, .replicate _ 0xCC, .replicate _ 0xCC, .replicate _ 0xCC⟩,
    .replicate _ 0xCC, .replicate _ (.replicate _ 0xCC)⟩ ++ [0xCC]).toArray

/-- The last of the directories is not read. -/
theorem read_encode_crowded :
  crowded.Valid
    ∧ DosHeader.read crowdedBytes = .ok ⟨dosSignature, 0x44⟩
    ∧ NtHeaders.read crowdedBytes 0x44
      = .ok ⟨crowded.coff, crowded.optional,
          (List.range 16).map fun i => ⟨0x2000 + 16 * i, 16⟩, 0x158⟩
    ∧ Section.readTable crowdedBytes 0x158 1 = .ok crowded.sections
  := by
  have valid : crowded.Valid := by
    constructor <;> decide
  have first : crowded.directories.take 16
      = (List.range 16).map fun i => ⟨0x2000 + 16 * i, 16⟩ := by
    decide
  rw [← first]
  use valid
  apply read_encode valid

end Headers

end ImageRefs
