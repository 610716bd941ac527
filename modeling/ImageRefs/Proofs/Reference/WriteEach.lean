import ImageRefs.Proofs.Reference.Word
import Mathlib.Data.List.Pairwise

/-!
# Writing references of both kinds

`AddressSpace.writeEach` writes a list of references of either kind one after the other.  It
keeps all bytes apart from the fields of the list (`getElem?_writeEach_of_apart`), and if these
lie apart from each other, it stores each of the references (`read?_writeEach_of_mem`), whatever
their order is (`writeEach_eq_of_perm`).
-/

namespace ImageRefs.AddressSpace

variable {a : AddressSpace} {kind : ReferenceKind} {data : Bytes}
  {entries : List (ReferenceKind × Reference)}

/-- The field of a reference of a kind. -/
def field (a : AddressSpace) (entry : ReferenceKind × Reference) : Region :=
  a.fieldAt entry.1 entry.2.location

/-- The buffer with references of either kind written into it one after the other. -/
def writeEach (a : AddressSpace) (data : Bytes) (entries : List (ReferenceKind × Reference)) :
    Bytes :=
  entries.foldl (fun data entry => a.write entry.1 data entry.2) data

theorem writeEach_cons (a : AddressSpace) (data : Bytes) (entry : ReferenceKind × Reference)
    (entries : List (ReferenceKind × Reference)) :
  a.writeEach data (entry :: entries) = a.writeEach (a.write entry.1 data entry.2) entries
  := rfl

/-- Writing the references of one kind is writing each of them with that kind. -/
theorem writeAll_eq_writeEach (a : AddressSpace) (kind : ReferenceKind) (data : Bytes)
    (references : List Reference) :
  a.writeAll kind data references = a.writeEach data (references.map (Prod.mk kind))
  := by
  rw [writeAll, writeEach, List.foldl_map]

/-- Writing the references of one kind after those of another is writing each of them. -/
theorem writeAll_writeAll (a : AddressSpace) (kind kind' : ReferenceKind) (data : Bytes)
    (references references' : List Reference) :
  a.writeAll kind' (a.writeAll kind data references) references'
    = a.writeEach data
      (references.map (Prod.mk kind) ++ references'.map (Prod.mk kind'))
  := by
  rw [writeAll_eq_writeEach, writeAll_eq_writeEach, writeEach, writeEach, writeEach,
    List.foldl_append]

@[simp]
theorem size_writeEach (a : AddressSpace) (data : Bytes)
    (entries : List (ReferenceKind × Reference)) :
  (a.writeEach data entries).size = data.size
  := by
  induction entries generalizing data with
  | nil => rfl
  | cons entry entries ih => rw [writeEach_cons, ih, size_write]

/-! ### What is kept -/

/-- Writing references keeps all bytes apart from their fields. -/
theorem getElem?_writeEach_of_apart {region : Region}
    (apart : ∀ entry ∈ entries, (a.field entry).Apart region) {i : Nat}
    (low : region.offset ≤ i) (high : i < region.offset + region.size) :
  (a.writeEach data entries)[i]? = data[i]?
  := by
  induction entries generalizing data with
  | nil => rfl
  | cons entry entries ih =>
    rw [List.forall_mem_cons] at apart
    rw [writeEach_cons, ih apart.2, write]
    split
    · rfl
    · apply Bytes.getElem?_write_of_apart apart.1 _ low high

/-- Writing references keeps the slices of all regions apart from their fields. -/
theorem slice?_writeEach_of_apart {region : Region}
    (apart : ∀ entry ∈ entries, (a.field entry).Apart region) :
  region.slice? (a.writeEach data entries) = region.slice? data
  := by
  apply Bytes.slice?_congr
  · rw [size_writeEach]
  · intro i low high
    apply getElem?_writeEach_of_apart apart low high

/-- Writing references keeps the words in all fields apart from theirs. -/
theorem stored_writeEach_of_apart {width location : Nat}
    (apart : ∀ entry ∈ entries, (a.field entry).Apart ⟨location, width⟩) :
  (a.writeEach data entries).read? width location = data.read? width location
  :=
  congrArg (Option.map ofLE) (slice?_writeEach_of_apart apart)

/-- Writing references into the beginning of a buffer is writing them into the buffer, if it
holds their fields. -/
theorem extract_writeEach {size : Nat}
    (inside : ∀ entry ∈ entries, (a.field entry).offset + (a.field entry).size ≤ size)
    (fits : size ≤ data.size) :
  (a.writeEach data entries).extract 0 size = a.writeEach (data.extract 0 size) entries
  := by
  induction entries generalizing data with
  | nil => rfl
  | cons entry entries ih =>
    rw [List.forall_mem_cons] at inside
    have hwrite : (a.write entry.1 data entry.2).extract 0 size
        = a.write entry.1 (data.extract 0 size) entry.2 := by
      rw [write, write]
      split
      · rfl
      · apply Bytes.extract_write inside.1 fits
    rw [writeEach_cons, writeEach_cons, ← hwrite]
    apply ih inside.2
    rw [size_write]
    apply fits

/-! ### What is stored -/

/-- A reference whose field lies inside the buffer has its word stored in its field. -/
theorem stored_write_self {r : Reference} {word : Nat} (encoded : a.word? kind r = some word)
    (fits : r.location + kind.fieldWidth a.width ≤ data.size) :
  (a.write kind data r).read? (kind.fieldWidth a.width) r.location = some word
  := by
  rw [write, encoded]
  dsimp only
  rw [Bytes.read?_write_self fits, Nat.mod_eq_of_lt (word_lt encoded)]

/-- Of references in fields apart from each other and inside the buffer, each has its word
stored. -/
theorem stored_writeEach_of_mem
    (apart : entries.Pairwise fun e f => (a.field e).Apart (a.field f))
    (fits : ∀ entry ∈ entries, entry.2.location + entry.1.fieldWidth a.width ≤ data.size)
    {entry : ReferenceKind × Reference} (h : entry ∈ entries) {word : Nat}
    (encoded : a.word? entry.1 entry.2 = some word) :
  (a.writeEach data entries).read? (entry.1.fieldWidth a.width) entry.2.location = some word
  := by
  induction apart generalizing data with
  | nil => cases h
  | @cons first entries apart _ ih =>
    rw [writeEach_cons]
    rcases List.mem_cons.mp h with rfl | later
    · rw [stored_writeEach_of_apart]
      · apply stored_write_self encoded (fits _ h)
      · intro e he
        apply (apart e he).symm
    · apply ih _ later
      rw [size_write]
      apply (List.forall_mem_cons.mp fits).2

/-- Of references that can be stored in fields apart from each other, each is read back. -/
theorem read?_writeEach_of_mem (based : a.Based)
    (apart : entries.Pairwise fun e f => (a.field e).Apart (a.field f))
    (storable : ∀ entry ∈ entries, a.Storable data.size entry.1 entry.2)
    {entry : ReferenceKind × Reference} (h : entry ∈ entries) :
  a.read? entry.1 (a.writeEach data entries) entry.2.location = some entry.2
  := by
  obtain ⟨word, encoded⟩ := (storable entry h).exists_word?
  have stored := stored_writeEach_of_mem apart (fun e he => (storable e he).fits) h encoded
  rw [read?_eq_bind, stored, Option.bind_some,
    ofWord?_of_word? based (storable entry h).encodable encoded]

/-! ### The order of the writes -/

/-- A field has at least one byte. -/
theorem fieldWidth_pos (kind : ReferenceKind) (width : Width) :
  0 < kind.fieldWidth width
  := by
  cases kind <;> cases width <;> decide

/-- Fields of references that have no byte in common lie apart. -/
theorem apart_of_disjoint {entry entry' : ReferenceKind × Reference}
    (disjoint : (a.field entry).Disjoint (a.field entry')) :
  (a.field entry).Apart (a.field entry')
  := by
  rcases Region.disjoint_iff.mp disjoint with empty | empty | apart
  · exact absurd empty (Nat.ne_of_gt (fieldWidth_pos entry.1 a.width))
  · exact absurd empty (Nat.ne_of_gt (fieldWidth_pos entry'.1 a.width))
  · apply apart

/-- References in fields apart from each other can be written in either order.  Which word a
reference has, and whether it has one, does not depend on the buffer. -/
theorem write_comm {entry entry' : ReferenceKind × Reference}
    (apart : (a.field entry).Apart (a.field entry')) (data : Bytes) :
  a.write entry'.1 (a.write entry.1 data entry.2) entry'.2
    = a.write entry.1 (a.write entry'.1 data entry'.2) entry.2
  := by
  unfold write
  cases a.word? entry.1 entry.2 with
  | none => rfl
  | some word =>
    cases a.word? entry'.1 entry'.2 with
    | none => rfl
    | some word' => apply Bytes.write_comm apart

/-- References of either kind, no two of which have a byte of their fields in common, can be
written in any order. -/
theorem writeEach_eq_of_perm (a : AddressSpace) (data : Bytes)
    {entries entries' : List (ReferenceKind × Reference)}
    (disjoint : entries.Pairwise fun e f => (a.field e).Disjoint (a.field f))
    (order : entries.Perm entries') :
  a.writeEach data entries = a.writeEach data entries'
  := by
  have symm : Std.Symm fun e f => (a.field e).Apart (a.field f) :=
    ⟨fun _ _ apart => apart.symm⟩
  have apart : entries.Pairwise fun e f => (a.field e).Apart (a.field f) :=
    disjoint.imp apart_of_disjoint
  apply order.foldl_eq'
  intro e he f hf data
  -- `foldl_eq'` asks for all pairs of members, a reference with itself included.
  by_cases same : e = f
  · rw [same]
  · apply write_comm (apart.forall he hf same)

/-- A space whose base lies just below the top of 64-bit addresses, with six bytes loaded. -/
def topSpace : AddressSpace :=
  ofBase .bits64 ⟨[⟨0, 6, 0x1000, 16⟩]⟩ 0xFFFFFFFFFFFFF000

/-- References of both kinds in disjoint fields.  In twenty bytes the field of the second one is
not loaded, and that of the last one does not fit. -/
def mixedReferences : List (ReferenceKind × Reference) :=
  [(.reloc, ⟨8, 0x1122334455667788⟩), (.rel32, ⟨16, 0x10⟩), (.rel32, ⟨2, 0x10⟩),
    (.reloc, ⟨20, 5⟩)]

/-- From the last one to the first one, the references are written as from the first to the
last. -/
theorem writeEach_eq_of_perm_mixed :
  (mixedReferences.Pairwise fun e f => (topSpace.field e).Disjoint (topSpace.field f))
    ∧ mixedReferences.Perm mixedReferences.reverse
    ∧ topSpace.writeEach (Array.replicate 20 0xAA) mixedReferences.reverse
      = #[0xAA, 0xAA, 10, 0, 0, 0, 0xAA, 0xAA, 0x88, 0x77, 0x66, 0x55, 0x44, 0x33, 0x22, 0x11,
        0xAA, 0xAA, 0xAA, 0xAA]
  := by
  have disjoint : mixedReferences.Pairwise fun e f =>
      (topSpace.field e).Disjoint (topSpace.field f) := by decide
  have order : mixedReferences.Perm mixedReferences.reverse := mixedReferences.reverse_perm.symm
  use disjoint, order
  rw [← writeEach_eq_of_perm topSpace _ disjoint order]
  decide +kernel

end ImageRefs.AddressSpace
