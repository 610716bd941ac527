import ImageRefs.Bytes.Basic

/-!
# Options

Options bound the size of images and choose how branches are recognised.  Offsets in an
image have 32 bits, so a larger bound on its size counts as the largest offset.
-/

namespace ImageRefs

/-- How branches are recognised. -/
structure BranchOptions where
  /-- A conditional branch must stay in the section it is found in. -/
  stayInSection : Bool := true
  /-- In 64-bit code, operands relative to the instruction pointer count as branches. -/
  ripRelative : Bool := true
  /-- The fields that base relocations patch are left out of the scan. -/
  avoidRelocations : Bool := true
  deriving Repr, DecidableEq

/-- Options for taking an image apart. -/
structure Options where
  maxImageSize : Nat := space32 - 1
  branches : BranchOptions := {}
  deriving Repr, DecidableEq

/-- The largest size an image may have. -/
def Options.imageSizeLimit (o : Options) : Nat :=
  min o.maxImageSize (space32 - 1)

/-- Offsets in an image of an admitted size have 32 bits. -/
theorem Options.lt_space32 (o : Options) {size : Nat} (h : size ≤ o.imageSizeLimit) :
  size < space32
  := by
  apply Nat.lt_of_le_pred (by decide)
  apply Nat.le_trans h (Nat.min_le_right _ _)

end ImageRefs
