import ImageRefs.Bytes.Basic

/-!
# Regions

A region is a half-open range of offsets, given by where it begins and how long it is.
Its end is an offset only if it can be represented; a region without an end lies in no
buffer.
-/

namespace ImageRefs

/-- The offsets from `offset` up to, and without, `offset + size`. -/
structure Region where
  offset : Nat
  size : Nat
  deriving Repr, DecidableEq

namespace Region

/-- The first offset past the region, if it can be represented. -/
def end? (r : Region) : Option Nat :=
  if r.offset + r.size < space64 then some (r.offset + r.size) else none

/-- The first offset past the region, or the largest offset if it has no end. -/
def stop (r : Region) : Nat :=
  r.end?.getD (space64 - 1)

/-- Whether the region lies inside a buffer of `size` bytes. -/
def fitsIn (r : Region) (size : Nat) : Bool :=
  r.end?.any (· ≤ size)

/-- The bytes of the region, if it lies inside the buffer. -/
def slice? (r : Region) (data : Bytes) : Option (List UInt8) :=
  data.slice? r.offset r.size

/-- The bytes of the part of the region that lies inside the buffer. -/
def clamped (r : Region) (data : Bytes) : List UInt8 :=
  (data.extract r.offset (min r.stop data.size)).toList

end Region

end ImageRefs
