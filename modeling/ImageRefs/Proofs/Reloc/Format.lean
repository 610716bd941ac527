import ImageRefs.Proofs.Bytes.Field
import ImageRefs.Reloc.Block
import Mathlib.Data.List.Flatten

/-!
# The format of base relocation tables

A base relocation table is the encoding of its blocks, one after another, and what stands
behind them is either nothing or malformed (`RelocBlock.Malformed`).  `RelocWalk.ofBytes`
accepts exactly this:

* What the walk reads, encoded again, is the front of the bytes, and the rest is where the
  walk had to end (`RelocWalk.exists_rest_ofBytes`).
* The walk reads any blocks back from their encoding (`RelocWalk.ofBytes_encodeAll`).

Both are shown first for one word, for the entries of a block and for one block at the
front of a list of bytes.
-/

namespace ImageRefs

/-! ### Entries -/

namespace RelocEntry

/-- The kind and the offset of an entry fit in four and in twelve bits. -/
structure Valid (e : RelocEntry) : Prop where
  kind : e.kind < 16
  pageOffset : e.pageOffset < pageSize

instance (e : RelocEntry) : Decidable e.Valid :=
  decidable_of_iff (e.kind < 16 ∧ e.pageOffset < pageSize)
    ⟨fun h => ⟨h.1, h.2⟩, fun h => ⟨h.kind, h.pageOffset⟩⟩

/-- The bytes of a list of entries. -/
def encodeAll (entries : List RelocEntry) : List UInt8 :=
  entries.flatMap fun e => toLE byteSize e.toWord

/-- A word stores a valid entry. -/
theorem valid_ofWord {word : Nat} (h : word < byteCapacity byteSize) :
  (ofWord word).Valid
  := by
  have hcapacity : byteCapacity byteSize = 16 * pageSize := by decide
  constructor
  · apply Nat.div_lt_of_lt_mul
    rw [Nat.mul_comm, ← hcapacity]
    apply h
  · apply Nat.mod_lt
    decide

/-- The word of the entry that a word stores is that word. -/
theorem toWord_ofWord (word : Nat) :
  (ofWord word).toWord = word
  :=
  Nat.div_add_mod' word pageSize

/-- A valid entry is the one that its word stores. -/
theorem Valid.ofWord_toWord {e : RelocEntry} (h : e.Valid) :
  ofWord e.toWord = e
  := by
  have hpos : 0 < pageSize := by decide
  rw [ofWord, toWord, Nat.add_comm, Nat.add_mul_div_right _ _ hpos, Nat.add_mul_mod_self_right,
    Nat.div_eq_of_lt h.pageOffset, Nat.mod_eq_of_lt h.pageOffset, Nat.zero_add]

/-- The word of a valid entry fits in its two bytes. -/
theorem Valid.toWord_lt {e : RelocEntry} (h : e.Valid) :
  e.toWord < byteCapacity byteSize
  := by
  calc e.kind * pageSize + e.pageOffset
    _ < e.kind * pageSize + pageSize := Nat.add_lt_add_left h.pageOffset _
    _ = (e.kind + 1) * pageSize := (Nat.succ_mul _ _).symm
    _ ≤ 16 * pageSize := Nat.mul_le_mul_right _ h.kind
    _ = byteCapacity byteSize := by decide

@[simp]
theorem encodeAll_nil : encodeAll [] = [] := rfl

theorem encodeAll_cons (e : RelocEntry) (entries : List RelocEntry) :
  encodeAll (e :: entries) = toLE byteSize e.toWord ++ encodeAll entries
  := rfl

@[simp]
theorem length_encodeAll (entries : List RelocEntry) :
  (encodeAll entries).length = byteSize * entries.length
  := by
  induction entries with
  | nil => rfl
  | cons e entries ih =>
    rw [encodeAll_cons, List.length_append, length_toLE, ih, List.length_cons, Nat.mul_succ,
      Nat.add_comm]

/-- A valid entry is read from its bytes, and then those behind it. -/
theorem listOfBytes_toLE_append {e : RelocEntry} (h : e.Valid) (rest : List UInt8) :
  listOfBytes (toLE byteSize e.toWord ++ rest) = e :: listOfBytes rest
  := by
  have hword : ofLE (toLE byteSize e.toWord) = e.toWord := by
    rw [ofLE_toLE, Nat.mod_eq_of_lt h.toWord_lt]
  calc listOfBytes (toLE byteSize e.toWord ++ rest)
    _ = ofWord (ofLE (toLE byteSize e.toWord)) :: listOfBytes rest := rfl
    _ = e :: listOfBytes rest := by rw [hword, h.ofWord_toWord]

/-- Valid entries are read back from their bytes. -/
theorem listOfBytes_encodeAll {entries : List RelocEntry} (valid : ∀ e ∈ entries, e.Valid) :
  listOfBytes (encodeAll entries) = entries
  := by
  induction entries with
  | nil => rfl
  | cons e entries ih =>
    rw [List.forall_mem_cons] at valid
    rw [encodeAll_cons, listOfBytes_toLE_append valid.1, ih valid.2]

/-- An even number of bytes are the bytes of the entries read from them. -/
theorem encodeAll_listOfBytes {bytes : List UInt8} (even : bytes.length % byteSize = 0) :
  encodeAll (listOfBytes bytes) = bytes
  := by
  fun_induction listOfBytes bytes with
  | case1 low high rest ih =>
    have hrest : rest.length % byteSize = 0 := by
      simp only [List.length_cons, byteSize] at even ⊢
      omega
    rw [encodeAll_cons, toWord_ofWord, ih hrest]
    have hword := toLE_ofLE [low, high]
    exact congrArg (· ++ rest) hword
  | case2 bytes short =>
    rcases bytes with _ | ⟨b, _ | ⟨c, rest⟩⟩
    · rfl
    · simp [byteSize] at even
    · exact absurd rfl (short b c rest)

/-- The entries read from a list of bytes are valid. -/
theorem valid_of_mem_listOfBytes {bytes : List UInt8} :
  ∀ e ∈ listOfBytes bytes, e.Valid
  := by
  fun_induction listOfBytes bytes with
  | case1 low high rest ih =>
    rw [List.forall_mem_cons]
    use valid_ofWord (ofLE_lt [low, high])
  | case2 => simp

end RelocEntry

/-! ### Blocks -/

namespace RelocBlock

/-- The parts of a block fit in the fields that store them. -/
structure Valid (b : RelocBlock) : Prop where
  pageRva : b.pageRva < space32
  byteSize : b.byteSize < space32
  entries : ∀ e ∈ b.entries, e.Valid

instance (b : RelocBlock) : Decidable b.Valid :=
  decidable_of_iff (b.pageRva < space32 ∧ b.byteSize < space32 ∧ ∀ e ∈ b.entries, e.Valid)
    ⟨fun h => ⟨h.1, h.2.1, h.2.2⟩, fun h => ⟨h.pageRva, h.byteSize, h.entries⟩⟩

/-- What the bytes of a block store: all of it but where it stands. -/
def content (b : RelocBlock) : Nat × List RelocEntry :=
  (b.pageRva, b.entries)

/-- The bytes of a list of blocks. -/
def encodeAll (blocks : List RelocBlock) : List UInt8 :=
  blocks.flatMap encode

/-- The bytes begin with no block, though there are some: they do not hold the header of a
block, or the size that it declares is below that of the header, odd, or more than there
is. -/
def Malformed (bytes : List UInt8) : Prop :=
  bytes ≠ [] ∧ (bytes.length < 8 ∨ field bytes 4 4 < 8 ∨ field bytes 4 4 % 2 = 1
    ∨ bytes.length < field bytes 4 4)

instance (bytes : List UInt8) : Decidable (Malformed bytes) :=
  inferInstanceAs (Decidable (_ ∧ _))

/-- The block of a given size at the front of a list of bytes that begins at a file
offset. -/
def atFront (offset size : Nat) (bytes : List UInt8) : RelocBlock where
  offset := offset % space32
  pageRva := field bytes 0 4
  entries := RelocEntry.listOfBytes ((bytes.take size).drop headerSize)

@[simp]
theorem length_encode (b : RelocBlock) :
  b.encode.length = b.byteSize
  := by
  have h := RelocEntry.length_encodeAll b.entries
  rw [RelocEntry.encodeAll] at h
  rw [encode, List.length_append, List.length_append, length_toLE, length_toLE, h]
  rfl

@[simp]
theorem encodeAll_nil : encodeAll [] = [] := rfl

theorem encodeAll_cons (b : RelocBlock) (blocks : List RelocBlock) :
  encodeAll (b :: blocks) = b.encode ++ encodeAll blocks
  := rfl

/-- Fewer blocks have no longer encoding. -/
theorem length_encodeAll_take_le (blocks : List RelocBlock) (i : Nat) :
  (encodeAll (blocks.take i)).length ≤ (encodeAll blocks).length
  :=
  ((List.take_sublist i blocks).flatMap encode).length_le

/-- There is no block at the front of a list of bytes exactly if there are no bytes or they
are malformed. -/
theorem sizeAtFront?_eq_none_iff {bytes : List UInt8} :
  sizeAtFront? bytes = none ↔ bytes = [] ∨ Malformed bytes
  := by
  rcases bytes with _ | ⟨b, bytes⟩
  · simp [sizeAtFront?, headerSize]
  · simp only [sizeAtFront?, Malformed, headerSize, RelocEntry.byteSize]
    grind

/-- There is a block at the front exactly if the size that it declares is even, at least that
of the header, and at most that of the bytes. -/
theorem sizeAtFront?_eq_some_iff {bytes : List UInt8} {size : Nat} :
  sizeAtFront? bytes = some size
    ↔ headerSize ≤ size ∧ size % RelocEntry.byteSize = 0 ∧ size ≤ bytes.length
      ∧ size = field bytes 4 4
  := by
  constructor
  · apply of_sizeAtFront?
  · rintro ⟨low, even, high, rfl⟩
    rw [sizeAtFront?, if_neg (by omega)]
    dsimp only
    rw [if_neg (by omega)]

/-- The bytes of a block begin with its page RVA and its size, each in four bytes. -/
theorem field_encode_append (b : RelocBlock) (rest : List UInt8) :
  field (b.encode ++ rest) 0 4 = b.pageRva % space32
    ∧ field (b.encode ++ rest) 4 4 = b.byteSize % space32
  := by
  rw [← byteCapacity_four, ← ofLE_toLE, ← ofLE_toLE]
  simp [field, encode, List.append_assoc, List.drop_append]

/-- The size of a valid block is read from its bytes, whatever stands behind them. -/
theorem Valid.sizeAtFront?_encode_append {b : RelocBlock} (h : b.Valid) (rest : List UInt8) :
  sizeAtFront? (b.encode ++ rest) = some b.byteSize
  := by
  have hsize := (b.field_encode_append rest).2
  rw [Nat.mod_eq_of_lt h.byteSize] at hsize
  rw [sizeAtFront?_eq_some_iff, hsize, List.length_append, length_encode]
  and_intros
  · apply Nat.le_add_right
  · rw [RelocBlock.byteSize, headerSize, RelocEntry.byteSize]
    omega
  · apply Nat.le_add_right
  · rfl

/-- A valid block is read from its bytes, whatever stands behind them. -/
theorem Valid.atFront_encode_append {b : RelocBlock} (h : b.Valid) (offset : Nat)
    (rest : List UInt8) :
  atFront offset b.byteSize (b.encode ++ rest) = { b with offset := offset % space32 }
  := by
  have hpage := (b.field_encode_append rest).1
  rw [Nat.mod_eq_of_lt h.pageRva] at hpage
  have hentries : ((b.encode ++ rest).take b.byteSize).drop headerSize
      = RelocEntry.encodeAll b.entries := by
    rw [List.take_left' b.length_encode, encode, List.drop_left' (by simp [headerSize])]
    rfl
  rw [atFront, hpage, hentries, RelocEntry.listOfBytes_encodeAll h.entries]

section AtFront

variable {bytes : List UInt8} {size : Nat} (found : sizeAtFront? bytes = some size)
  (offset : Nat)
include found

/-- The entries of the block at the front are stored behind its header. -/
theorem encodeAll_entries_atFront :
  RelocEntry.encodeAll (atFront offset size bytes).entries = (bytes.take size).drop headerSize
  := by
  obtain ⟨low, even, high, -⟩ := of_sizeAtFront? found
  apply RelocEntry.encodeAll_listOfBytes
  rw [List.length_drop, List.length_take, Nat.min_eq_left high]
  simp only [headerSize, RelocEntry.byteSize] at *
  omega

/-- The block at the front has the size that it declares. -/
theorem byteSize_atFront :
  (atFront offset size bytes).byteSize = size
  := by
  obtain ⟨low, -, high, -⟩ := of_sizeAtFront? found
  have hentries := RelocEntry.length_encodeAll (atFront offset size bytes).entries
  rw [encodeAll_entries_atFront found, List.length_drop, List.length_take,
    Nat.min_eq_left high] at hentries
  rw [byteSize, ← hentries]
  omega

/-- The bytes of the block at the front are those that it was read from. -/
theorem encode_atFront :
  (atFront offset size bytes).encode = bytes.take size
  := by
  obtain ⟨low, -, high, declared⟩ := of_sizeAtFront? found
  have hheader : 4 + 4 ≤ size := low
  calc (atFront offset size bytes).encode
    _ = toLE 4 (field bytes 0 4) ++ toLE 4 (atFront offset size bytes).byteSize
        ++ RelocEntry.encodeAll (atFront offset size bytes).entries := rfl
    _ = bytes.take 4 ++ (bytes.drop 4).take 4 ++ (bytes.take size).drop 8 := by
      rw [byteSize_atFront found, encodeAll_entries_atFront found, declared,
        toLE_field (by omega), toLE_field (by omega), List.drop_zero, headerSize]
    _ = (bytes.take size).take 8 ++ (bytes.take size).drop 8 := by
      rw [← List.take_add, List.take_take, Nat.min_eq_left hheader]
    _ = bytes.take size := List.take_append_drop _ _

/-- The block at the front is valid. -/
theorem valid_atFront :
  (atFront offset size bytes).Valid
  := by
  obtain ⟨-, -, -, declared⟩ := of_sizeAtFront? found
  constructor
  · apply field_lt
  · rw [byteSize_atFront found, declared]
    apply field_lt
  · apply RelocEntry.valid_of_mem_listOfBytes

end AtFront

end RelocBlock

/-! ### Walks -/

namespace RelocWalk

open RelocBlock

/-- A walk reads nothing where no block begins; it is complete if there are no bytes. -/
theorem ofBytes_of_none {bytes : List UInt8} (h : sizeAtFront? bytes = none) (offset : Nat) :
  ofBytes offset bytes = ⟨[], bytes.isEmpty⟩
  := by
  rw [ofBytes]
  split
  · rfl
  · next found => rw [found] at h; cases h

/-- A walk reads the block at the front and then those behind it. -/
theorem ofBytes_of_some {bytes : List UInt8} {size : Nat} (h : sizeAtFront? bytes = some size)
    (offset : Nat) :
  ofBytes offset bytes
    = ⟨atFront offset size bytes :: (ofBytes (offset + size) (bytes.drop size)).blocks,
        (ofBytes (offset + size) (bytes.drop size)).complete⟩
  := by
  rw [ofBytes]
  split
  · next none => rw [none] at h; cases h
  · next found => cases found.symm.trans h; rfl

/-- Valid blocks are read back from their encoding, if no block begins behind them. -/
theorem ofBytes_encodeAll {blocks : List RelocBlock} (valid : ∀ b ∈ blocks, b.Valid)
    {rest : List UInt8} (stop : sizeAtFront? rest = none) (offset : Nat) :
  (ofBytes offset (encodeAll blocks ++ rest)).blocks.map content = blocks.map content
    ∧ (ofBytes offset (encodeAll blocks ++ rest)).complete = rest.isEmpty
  := by
  induction blocks generalizing offset with
  | nil =>
    rw [encodeAll_nil, List.nil_append, ofBytes_of_none stop]
    exact ⟨rfl, rfl⟩
  | cons b blocks ih =>
    rw [List.forall_mem_cons] at valid
    obtain ⟨hblocks, hcomplete⟩ := ih valid.2 (offset + b.byteSize)
    rw [encodeAll_cons, List.append_assoc, ofBytes_of_some (valid.1.sizeAtFront?_encode_append _),
      valid.1.atFront_encode_append, List.drop_left' b.length_encode]
    constructor
    · rw [List.map_cons, List.map_cons, hblocks, content, content]
    · apply hcomplete

/-- What a walk reads is the front of the bytes, and the walk ends where no block begins. -/
theorem exists_rest_ofBytes (offset : Nat) (bytes : List UInt8) :
  ∃ rest, bytes = encodeAll (ofBytes offset bytes).blocks ++ rest
    ∧ sizeAtFront? rest = none
    ∧ (ofBytes offset bytes).complete = rest.isEmpty
  := by
  induction offset, bytes using ofBytes.induct with
  | case1 offset bytes stop =>
    rw [ofBytes_of_none stop]
    use bytes, rfl, stop
  | case2 offset bytes size found ih =>
    obtain ⟨rest, hbytes, stop, hcomplete⟩ := ih
    rw [ofBytes_of_some found]
    use rest
    and_intros
    · rw [encodeAll_cons, encode_atFront found, List.append_assoc, ← hbytes,
        List.take_append_drop]
    · apply stop
    · apply hcomplete

/-- The blocks that a walk reads are valid. -/
theorem valid_of_mem_ofBytes (offset : Nat) (bytes : List UInt8) :
  ∀ b ∈ (ofBytes offset bytes).blocks, b.Valid
  := by
  induction offset, bytes using ofBytes.induct with
  | case1 offset bytes stop =>
    rw [ofBytes_of_none stop]
    apply List.forall_mem_nil
  | case2 offset bytes size found ih =>
    rw [ofBytes_of_some found, List.forall_mem_cons]
    use valid_atFront found offset

/-- A walk is complete exactly if the bytes are the encoding of valid blocks. -/
theorem complete_ofBytes_iff (offset : Nat) (bytes : List UInt8) :
  (ofBytes offset bytes).complete = true
    ↔ ∃ blocks, (∀ b ∈ blocks, b.Valid) ∧ encodeAll blocks = bytes
  := by
  constructor
  · intro complete
    obtain ⟨rest, hbytes, -, hcomplete⟩ := exists_rest_ofBytes offset bytes
    rw [hcomplete, List.isEmpty_iff] at complete
    rw [complete, List.append_nil] at hbytes
    use (ofBytes offset bytes).blocks, valid_of_mem_ofBytes offset bytes, hbytes.symm
  · rintro ⟨blocks, valid, rfl⟩
    have stop : sizeAtFront? [] = none := rfl
    have hcomplete := (ofBytes_encodeAll valid stop offset).2
    rwa [List.append_nil] at hcomplete

/-- A block stands behind the encoding of those that are read before it. -/
theorem offset_ofBytes (offset : Nat) (bytes : List UInt8) (i : Nat)
    (h : i < (ofBytes offset bytes).blocks.length) :
  (ofBytes offset bytes).blocks[i].offset
    = (offset + (encodeAll ((ofBytes offset bytes).blocks.take i)).length) % space32
  := by
  induction offset, bytes using ofBytes.induct generalizing i with
  | case1 offset bytes stop => simp [ofBytes_of_none stop] at h
  | case2 offset bytes size found ih =>
    simp only [ofBytes_of_some found] at h ⊢
    rcases i with _ | i
    · rfl
    · rw [List.getElem_cons_succ, ih i (Nat.lt_of_succ_lt_succ h), List.take_succ_cons,
        encodeAll_cons, List.length_append, length_encode, byteSize_atFront found, Nat.add_assoc]

/-- The walk of a region inside a buffer reads the bytes of the region. -/
theorem ofRegion_of_fits {data : Bytes} {region : Region}
    (h : region.offset + region.size ≤ data.size) :
  ofRegion data region
    = ofBytes region.offset ((data.toList.drop region.offset).take region.size)
  := by
  rw [ofRegion, Region.slice?, Bytes.slice?_eq_some_iff.mpr ⟨h, rfl⟩]

/-- There is nothing to walk through in a region that does not lie inside the buffer. -/
theorem ofRegion_of_not_fits {data : Bytes} {region : Region}
    (h : ¬ region.offset + region.size ≤ data.size) :
  ofRegion data region = ⟨[], false⟩
  := by
  rw [ofRegion, Region.slice?, Bytes.slice?, if_neg h]

/-- The walk of a region accepts its format and nothing else.

* In a region inside a buffer that 32-bit offsets reach, the blocks that are read, encoded
  again, are the front of the region.  The rest is empty if the walk is complete and
  malformed otherwise.  The parts of the blocks fit in their fields, and each block stands
  behind the encoding of those before it.
* Valid blocks that are encoded in a region are read back in order if what stands behind
  them is empty or malformed, and the walk is complete exactly if it is empty.
* A region that does not lie inside the buffer has no blocks, and the walk is not complete. -/
theorem ofRegion_exact :
  (∀ (data : Bytes) (region : Region), data.size < space32 →
      region.offset + region.size ≤ data.size →
      ∃ rest, (data.toList.drop region.offset).take region.size
          = encodeAll (ofRegion data region).blocks ++ rest
        ∧ (if (ofRegion data region).complete then rest = [] else Malformed rest)
        ∧ (∀ b ∈ (ofRegion data region).blocks, b.Valid)
        ∧ ∀ i (h : i < (ofRegion data region).blocks.length),
            (ofRegion data region).blocks[i].offset
              = region.offset + (encodeAll ((ofRegion data region).blocks.take i)).length)
  ∧ (∀ (blocks : List RelocBlock) (rest : List UInt8) (data : Bytes) (region : Region),
      (∀ b ∈ blocks, b.Valid) → rest = [] ∨ Malformed rest →
      region.offset + region.size ≤ data.size →
      (data.toList.drop region.offset).take region.size = encodeAll blocks ++ rest →
      (ofRegion data region).blocks.map content = blocks.map content
        ∧ ((ofRegion data region).complete = true ↔ rest = []))
  ∧ ∀ (data : Bytes) (region : Region), ¬ region.offset + region.size ≤ data.size →
      ofRegion data region = ⟨[], false⟩
  := by
  and_intros
  · intro data region small h
    rw [ofRegion_of_fits h]
    obtain ⟨rest, hbytes, stop, hcomplete⟩ := exists_rest_ofBytes region.offset
      ((data.toList.drop region.offset).take region.size)
    use rest, hbytes
    and_intros
    · split
      · next complete => rwa [hcomplete, List.isEmpty_iff] at complete
      · next incomplete =>
        rw [hcomplete, List.isEmpty_iff] at incomplete
        exact (sizeAtFront?_eq_none_iff.mp stop).resolve_left incomplete
    · apply valid_of_mem_ofBytes
    · intro i hi
      -- The blocks before lie in the region, so their end has 32 bits and no offset is cut off.
      have hprefix := length_encodeAll_take_le
        (ofBytes region.offset ((data.toList.drop region.offset).take region.size)).blocks i
      have hlength := congrArg List.length hbytes
      rw [List.length_append, List.length_take, List.length_drop, Array.length_toList] at hlength
      rw [offset_ofBytes, Nat.mod_eq_of_lt]
      omega
  · intro blocks rest data region valid stop h hbytes
    rw [ofRegion_of_fits h, hbytes]
    obtain ⟨hblocks, hcomplete⟩ :=
      ofBytes_encodeAll valid (sizeAtFront?_eq_none_iff.mpr stop) region.offset
    use hblocks
    rw [hcomplete, List.isEmpty_iff]
  · intro data region h
    rw [ofRegion, Region.slice?, Bytes.slice?, if_neg h]

/-- A table of two blocks, with a block of no size behind them and one byte before. -/
def stopped : Bytes :=
  #[0xCC,
    0x00, 0x10, 0, 0, 12, 0, 0, 0, 0x10, 0x30, 0x20, 0x30,
    0x00, 0x20, 0, 0, 10, 0, 0, 0, 0x04, 0xA0,
    0x00, 0x30, 0, 0, 0, 0, 0, 0]

/-- The two blocks of the table are read, and the walk is not complete. -/
theorem ofRegion_exact_stopped :
  (ofRegion stopped ⟨1, 30⟩).blocks.map content
      = [(0x1000, [⟨3, 0x010⟩, ⟨3, 0x020⟩]), (0x2000, [⟨10, 0x004⟩])]
    ∧ (ofRegion stopped ⟨1, 30⟩).complete = false
  := by
  have valid : ∀ b ∈ [(⟨0, 0x1000, [⟨3, 0x010⟩, ⟨3, 0x020⟩]⟩ : RelocBlock),
      ⟨0, 0x2000, [⟨10, 0x004⟩]⟩], b.Valid := by
    decide
  have malformed : Malformed [0x00, 0x30, 0, 0, 0, 0, 0, 0] := by
    decide
  have h := ofRegion_exact.2.1 _ _ stopped ⟨1, 30⟩ valid (.inr malformed) (by decide) (by decide)
  use h.1
  rw [← Bool.not_eq_true, h.2]
  decide

end RelocWalk

end ImageRefs
