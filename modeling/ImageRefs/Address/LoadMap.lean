import ImageRefs.Bytes.Basic

/-!
# Load maps

A mapping says which bytes of a file are loaded where: it pairs a range of file offsets
with a range of relative virtual addresses (RVAs).  The two ranges begin together and may
differ in size: file bytes past the RVA range are not loaded, and RVAs past the file bytes
are filled with zeros and have no file offset.

A load map is a list of mappings.  The first mapping whose range holds the value that
is asked for decides the answer, so mappings may overlap and come in any order.
-/

namespace ImageRefs

/-- A range of file offsets paired with a range of relative virtual addresses. -/
structure Mapping where
  offsetBegin : Nat
  offsetSize : Nat
  rvaBegin : Nat
  rvaSize : Nat
  deriving Repr, DecidableEq

namespace Mapping

/-- The number of leading bytes that have both an offset and an RVA. -/
def shared (m : Mapping) : Nat :=
  min m.offsetSize m.rvaSize

/-- Whether the mapping loads the byte at a file offset. -/
def coversOffset (m : Mapping) (offset : Nat) : Bool :=
  decide (m.offsetBegin ≤ offset) && decide (offset - m.offsetBegin < m.shared)

/-- Whether an RVA lies in the RVA range of the mapping. -/
def coversRva (m : Mapping) (rva : Nat) : Bool :=
  decide (m.rvaBegin ≤ rva) && decide (rva - m.rvaBegin < m.rvaSize)

theorem coversOffset_iff (m : Mapping) (offset : Nat) :
  m.coversOffset offset = true
    ↔ m.offsetBegin ≤ offset ∧ offset < m.offsetBegin + m.shared
  := by
  simp only [coversOffset, Bool.and_eq_true, decide_eq_true_eq]
  omega

theorem coversRva_iff (m : Mapping) (rva : Nat) :
  m.coversRva rva = true ↔ m.rvaBegin ≤ rva ∧ rva < m.rvaBegin + m.rvaSize
  := by
  simp only [coversRva, Bool.and_eq_true, decide_eq_true_eq]
  omega

end Mapping

/-- Why a list of mappings is refused: the mapping at an index has a range whose end does
not fit in 32 bits. -/
inductive MappingError where
  | offsetOverflow (index : Nat)
  | rvaOverflow (index : Nat)
  deriving Repr, DecidableEq

/-- The text of the error. -/
def MappingError.message : MappingError → String
  | .offsetOverflow index => s!"Unit {index} overflows the 32-bit offset space"
  | .rvaOverflow index => s!"Unit {index} overflows the 32-bit RVA space"

/-- The fault of the mapping at `index`, its offset range being judged first. -/
def Mapping.fault? (m : Mapping) (index : Nat) : Option MappingError :=
  if space32 ≤ m.offsetBegin + m.offsetSize then some (.offsetOverflow index)
  else if space32 ≤ m.rvaBegin + m.rvaSize then some (.rvaOverflow index)
  else none

/-- A list of mappings, of which the first that applies decides. -/
structure LoadMap where
  mappings : List Mapping
  deriving Repr, DecidableEq

namespace LoadMap

/-- The load map of a list of mappings, none of which may overflow. -/
def ofMappings (mappings : List Mapping) : Except MappingError LoadMap :=
  match mappings.zipIdx.findSome? fun p => p.1.fault? p.2 with
  | some fault => .error fault
  | none => .ok ⟨mappings⟩

/-- The RVA at which the byte at a file offset is loaded. -/
def offsetToRva? (l : LoadMap) (offset : Nat) : Option Nat :=
  (l.mappings.find? (·.coversOffset offset)).map
    fun m => m.rvaBegin + (offset - m.offsetBegin)

/-- The file offset of the byte loaded at an RVA.  It has none if no mapping covers the
RVA, and none if the first mapping that covers it fills it with zeros. -/
def rvaToOffset? (l : LoadMap) (rva : Nat) : Option Nat :=
  (l.mappings.find? (·.coversRva rva)).bind fun m =>
    if rva - m.rvaBegin < m.shared then some (m.offsetBegin + (rva - m.rvaBegin)) else none

/-- Whether some mapping covers an RVA, be it with file bytes or with zeros. -/
def validRva (l : LoadMap) (rva : Nat) : Bool :=
  l.mappings.any (·.coversRva rva)

/-- Whether some mapping loads the byte at a file offset. -/
def validOffset (l : LoadMap) (offset : Nat) : Bool :=
  l.mappings.any (·.coversOffset offset)

end LoadMap

end ImageRefs
