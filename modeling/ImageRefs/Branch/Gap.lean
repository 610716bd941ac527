import ImageRefs.Bytes.Region

/-!
# Gaps between fields

Fields of one width at ascending locations cut a region into gaps.  A gap is a largest
range of offsets of the region that no field touches.
-/

namespace ImageRefs

/-- The first offset past a field of `width` bytes at `location`, modulo `2 ^ 64`.  A field of an
image ends inside of it, so its end has 64 bits; a larger one is cut off here, where an addition
that is checked would stop. -/
def fieldEnd (width location : Nat) : Nat :=
  (location + width) % space64

namespace Gap

/-- The gaps from `cursor` up to `stop` between fields at ascending locations. -/
def between (width stop : Nat) : (cursor : Nat) → List Nat → List Region
  | cursor, [] => if cursor < stop then [⟨cursor, stop - cursor⟩] else []
  | cursor, location :: locations =>
    if cursor < stop then
      if location < stop then
        let gaps := between width stop (max cursor (fieldEnd width location)) locations
        if cursor < location then ⟨cursor, location - cursor⟩ :: gaps else gaps
      else
        [⟨cursor, stop - cursor⟩]
    else
      []

/-- The gaps of a region between fields of `width` bytes at ascending locations.  Fields
that end before the region are left out first. -/
def ofRegion (width : Nat) (region : Region) (locations : List Nat) : List Region :=
  between width region.stop region.offset
    (locations.dropWhile fun location => fieldEnd width location ≤ region.offset)

end Gap

end ImageRefs
