import ImageRefs.Proofs.Checked.Address
import ImageRefs.Proofs.Reloc.Format
import ImageRefs.Reloc.Table

/-!
# Checked base relocations

The walk through a base relocation table keeps a cursor, reads the header of the block there,
and cuts the entries of the block out of the table.  The walk moves on by the size of the block,
which is not zero (`Checked.walkStep_cases`), so it has no fault and comes to an end
(`Checked.walkRegion_eq_ok`).  The locations are those of the table (`Checked.relocTable_eq_ok`).
-/

namespace ImageRefs.Checked

/-- How far a walk has come: the place behind the blocks that have been read, and the blocks. -/
structure WalkState where
  cursor : Nat
  blocks : List RelocBlock

/-- The block of a given page and size at the cursor, in the bytes of a table that begins at the
file offset `start`. -/
def readBlock (start : Nat) (bytes : List UInt8) (cursor pageRva size : Nat) :
    Checked RelocBlock := do
  let first ← sum space64 cursor RelocBlock.headerSize
  let stop ← sum space64 cursor size
  let entries ← window bytes first stop
  let place ← sum space64 start cursor
  let offset ← narrow place
  .ok ⟨offset, pageRva, RelocEntry.listOfBytes entries⟩

/-- A step of a walk: it reads the block at the cursor, or ends the walk. -/
def walkStep (start : Nat) (bytes : List UInt8) (s : WalkState) :
    Checked (WalkState ⊕ RelocWalk) := do
  if s.cursor < bytes.length then
    let remaining ← difference bytes.length s.cursor
    let sizeField ← sum space64 s.cursor 4
    match Bytes.read? bytes.toArray 4 s.cursor, Bytes.read? bytes.toArray 4 sizeField with
    | some pageRva, some size =>
      if size < RelocBlock.headerSize ∨ size % RelocEntry.byteSize ≠ 0 ∨ remaining < size then
        .ok (.inr ⟨s.blocks, false⟩)
      else
        let block ← readBlock start bytes s.cursor pageRva size
        let cursor ← sum space64 s.cursor size
        .ok (.inl ⟨cursor, s.blocks ++ [block]⟩)
    | _, _ => .ok (.inr ⟨s.blocks, false⟩)
  else
    .ok (.inr ⟨s.blocks, true⟩)

/-- `RelocWalk.ofRegion`, checked.  There are no more steps than bytes, and one for the end. -/
def walkRegion (data : Bytes) (region : Region) : Checked RelocWalk :=
  match region.slice? data with
  | none => .ok ⟨[], false⟩
  | some bytes => iterate (walkStep region.offset bytes) (bytes.length + 1) ⟨0, []⟩

/-- `Image.relocWalk`, checked. -/
def relocWalk (image : Image) : Checked RelocWalk :=
  match image.relocationDirectory with
  | none => .ok ⟨[], true⟩
  | some directory => do
    match ← rvaToOffset image.loadMap directory.rva with
    | none => .ok ⟨[], false⟩
    | some offset => walkRegion image.bytes ⟨offset, directory.size⟩

/-- `Image.relocLocation?`, checked. -/
def relocLocation (image : Image) (block : RelocBlock) (entry : RelocEntry) :
    Checked (Option Nat) :=
  if entry.kind = image.width.relocKind then
    match block.targetRva? entry with
    | none => .ok none
    | some rva => do
      let location ← rvaToOffset image.loadMap rva
      .ok (location.filter (image.holdsField image.width.bytes))
  else
    .ok none

/-- `Image.relocTable`, checked. -/
def relocTable (image : Image) : Checked RelocTable := do
  let walk ← relocWalk image
  let locations ← walk.blocks.mapM fun block => block.entries.mapM (relocLocation image block)
  .ok ⟨walk.blocks, Locations.spaced 1 (locations.flatMap (·.filterMap id)), walk.complete⟩

/-! ### Walks -/

/-- What a walk has read when it has come to an end. -/
def walkResult (start : Nat) (bytes : List UInt8) (s : WalkState) : RelocWalk :=
  let rest := RelocWalk.ofBytes (start + s.cursor) (bytes.drop s.cursor)
  ⟨s.blocks ++ rest.blocks, rest.complete⟩

/-- A field behind the cursor is read if it lies inside the bytes. -/
theorem read?_behind {bytes : List UInt8} {cursor place : Nat}
    (inside : cursor + place + 4 ≤ bytes.length) :
  Bytes.read? bytes.toArray 4 (cursor + place) = some (field (bytes.drop cursor) place 4)
  := by
  apply Bytes.read?_eq_some_iff.mpr
  use inside
  rw [field, field, List.drop_drop]

section Walk

variable {start : Nat} {bytes : List UInt8} (small : start + bytes.length < space32)
include small

/-- The block at the cursor is read without a fault if there is one. -/
theorem readBlock_eq_ok {cursor size : Nat}
    (found : RelocBlock.sizeAtFront? (bytes.drop cursor) = some size) :
  readBlock start bytes cursor (field (bytes.drop cursor) 0 4) size
    = .ok (RelocBlock.atFront (start + cursor) size (bytes.drop cursor))
  := by
  obtain ⟨low, -, high, -⟩ := RelocBlock.of_sizeAtFront? found
  have wide : space32 + 8 ≤ space64 := by decide
  have positive : 0 < RelocBlock.headerSize := by decide
  rw [List.length_drop] at high
  have entries : (bytes.take (cursor + size)).drop (cursor + RelocBlock.headerSize)
      = ((bytes.drop cursor).take size).drop RelocBlock.headerSize := by
    rw [← List.drop_drop, List.drop_take, Nat.add_sub_cancel_left]
  rw [readBlock, sum_eq_ok (by omega), ok_bind, sum_eq_ok (by omega), ok_bind,
    window_eq_ok (by omega) (by omega), ok_bind, sum_eq_ok (by omega), ok_bind,
    narrow_eq_ok (by omega), ok_bind, entries, RelocBlock.atFront, Nat.mod_eq_of_lt (by omega)]

/-- A walk ends at a block that is not well formed. -/
theorem walkStep_of_none {s : WalkState} (inside : s.cursor < bytes.length)
    (none : RelocBlock.sizeAtFront? (bytes.drop s.cursor) = none) :
  walkStep start bytes s = .ok (.inr ⟨s.blocks, false⟩)
  := by
  have wide : space32 + 8 ≤ space64 := by decide
  rw [walkStep, if_pos inside, difference_eq_ok (by omega), ok_bind, sum_eq_ok (by omega),
    ok_bind]
  split
  · next page size hpage hsize =>
    obtain ⟨fits, hsize⟩ := Bytes.read?_eq_some_iff.mp hsize
    obtain ⟨-, bad⟩ := (RelocBlock.sizeAtFront?_eq_none_iff.mp none).resolve_left
      (mt List.drop_eq_nil_iff.mp (Nat.not_le.mpr inside))
    rw [List.length_drop, field, List.drop_drop, ← field, hsize] at bad
    rw [List.size_toArray] at fits
    rw [if_pos]
    simp only [RelocBlock.headerSize, RelocEntry.byteSize]
    omega
  · rfl

/-- A walk reads a block that is well formed and moves on behind it. -/
theorem walkStep_of_some {s : WalkState} {size : Nat}
    (found : RelocBlock.sizeAtFront? (bytes.drop s.cursor) = some size) :
  walkStep start bytes s
    = .ok (.inl ⟨s.cursor + size,
      s.blocks ++ [RelocBlock.atFront (start + s.cursor) size (bytes.drop s.cursor)]⟩)
  := by
  have wide : space32 + 8 ≤ space64 := by decide
  obtain ⟨low, even, high, declared⟩ := RelocBlock.of_sizeAtFront? found
  have positive : 8 ≤ size := low
  rw [List.length_drop] at high
  have page := @read?_behind bytes s.cursor 0 (by omega)
  have next := @read?_behind bytes s.cursor 4 (by omega)
  rw [Nat.add_zero] at page
  rw [← declared] at next
  rw [walkStep, if_pos (by omega), difference_eq_ok (by omega), ok_bind, sum_eq_ok (by omega),
    ok_bind, page, next]
  dsimp only
  rw [if_neg (by omega), readBlock_eq_ok small found, ok_bind, sum_eq_ok (by omega), ok_bind]

/-- A step of a walk has no fault.  It ends the walk, or reads a block and moves the cursor on,
not past the end of the bytes. -/
theorem walkStep_cases {s : WalkState} (inside : s.cursor ≤ bytes.length) :
  walkStep start bytes s = .ok (.inr (walkResult start bytes s))
    ∨ ∃ t, walkStep start bytes s = .ok (.inl t) ∧ t.cursor ≤ bytes.length
      ∧ bytes.length - t.cursor < bytes.length - s.cursor
      ∧ walkResult start bytes t = walkResult start bytes s
  := by
  rcases Nat.eq_or_lt_of_le inside with ended | inside
  · left
    have rest : bytes.drop s.cursor = [] := List.drop_eq_nil_iff.mpr (Nat.le_of_eq ended.symm)
    rw [walkStep, if_neg (by omega), walkResult, rest, RelocWalk.ofBytes_of_none rfl]
    simp only [List.append_nil, List.isEmpty_nil]
  · cases found : RelocBlock.sizeAtFront? (bytes.drop s.cursor) with
    | none =>
      left
      have rest : (bytes.drop s.cursor).isEmpty = false := by
        rw [List.isEmpty_eq_false_iff]
        apply mt List.drop_eq_nil_iff.mp (Nat.not_le.mpr inside)
      rw [walkStep_of_none small inside found, walkResult, RelocWalk.ofBytes_of_none found, rest]
      simp only [List.append_nil]
    | some size =>
      right
      obtain ⟨low, -, high, -⟩ := RelocBlock.of_sizeAtFront? found
      have positive : 8 ≤ size := low
      rw [List.length_drop] at high
      refine ⟨_, walkStep_of_some small found, ?_, ?_, ?_⟩
      · dsimp only
        omega
      · dsimp only
        omega
      · rw [walkResult, walkResult, RelocWalk.ofBytes_of_some found, List.drop_drop]
        simp only [List.append_assoc, List.singleton_append, Nat.add_assoc]

end Walk

/-- The walk through a region has no fault and comes to an end. -/
theorem walkRegion_eq_ok {data : Bytes} (small : data.size < space32) (region : Region) :
  walkRegion data region = .ok (RelocWalk.ofRegion data region)
  := by
  rw [walkRegion, RelocWalk.ofRegion]
  cases slice : region.slice? data with
  | none => rfl
  | some bytes =>
    have length := Bytes.length_of_slice? slice
    obtain ⟨fits, -⟩ := Bytes.slice?_eq_some_iff.mp slice
    have ends : iterate (walkStep region.offset bytes) (bytes.length + 1) ⟨0, []⟩
        = .ok (walkResult region.offset bytes ⟨0, []⟩) := by
      apply iterate_eq_ok (fun s => s.cursor ≤ bytes.length) (fun s => bytes.length - s.cursor)
      · intro s
        apply walkStep_cases
        omega
      · apply Nat.zero_le
      · dsimp only
        omega
    dsimp only
    rw [ends, walkResult]
    simp only [Nat.add_zero, List.drop_zero, List.nil_append]

/-! ### Tables -/

section Table

variable {image : Image} (small : image.bytes.size < space32)
  (bounded : ∀ m ∈ image.loadMap.mappings, m.Bounded)
include bounded

theorem relocLocation_eq_ok (block : RelocBlock) (entry : RelocEntry) :
  relocLocation image block entry = .ok (image.relocLocation? block entry)
  := by
  rw [relocLocation, Image.relocLocation?]
  split
  · cases block.targetRva? entry with
    | none => rfl
    | some rva =>
      dsimp only
      rw [rvaToOffset_eq_ok bounded, ok_bind, Option.bind_some]
  · rfl

include small

theorem relocWalk_eq_ok :
  relocWalk image = .ok image.relocWalk
  := by
  rw [relocWalk, Image.relocWalk]
  cases image.relocationDirectory with
  | none => rfl
  | some directory =>
    dsimp only
    rw [rvaToOffset_eq_ok bounded, ok_bind]
    cases image.loadMap.rvaToOffset? directory.rva with
    | none => rfl
    | some offset =>
      dsimp only
      rw [walkRegion_eq_ok small]

/-- The table of base relocations is computed without a fault. -/
theorem relocTable_eq_ok :
  relocTable image = .ok image.relocTable
  := by
  have locations : (image.relocWalk.blocks.mapM fun block =>
        block.entries.mapM (relocLocation image block))
      = .ok (image.relocWalk.blocks.map fun block =>
        block.entries.map (image.relocLocation? block)) := by
    apply mapM_eq_ok
    intro block _
    apply mapM_eq_ok
    intro entry _
    apply relocLocation_eq_ok bounded
  rw [relocTable, relocWalk_eq_ok small bounded, ok_bind, locations, ok_bind, Image.relocTable,
    Image.patchedLocations, List.flatMap_map]
  simp only [List.filterMap_map, Function.id_comp]

end Table

end ImageRefs.Checked
