import ImageRefs.Proofs.Branch.Complement
import ImageRefs.Proofs.Branch.Walk

/-!
# Walking in the gaps

Walking in each gap between the fields of a region finds the same branches as walking through
the whole region and refusing the instructions that meet a field (`Gap.flatMap_ofRegion`).
An instruction that a gap cuts off meets the field behind the gap, and at the bytes of a
field no instruction begins that does not meet it.
-/

namespace ImageRefs

/-- An instruction meets none of the fields of `width` bytes at the given locations. -/
def Candidate.Avoids (width : Nat) (locations : List Nat) (c : Candidate) : Prop :=
  ∀ l ∈ locations, c.stop ≤ l ∨ l + width ≤ c.start

instance (width : Nat) (locations : List Nat) (c : Candidate) :
    Decidable (c.Avoids width locations) :=
  inferInstanceAs (Decidable (∀ l ∈ locations, c.stop ≤ l ∨ l + width ≤ c.start))

/-- The bytes of a buffer from `start` up to, and without, `stop`. -/
def Bytes.span (data : Bytes) (start stop : Nat) : List UInt8 :=
  (data.extract start stop).toList

namespace Bytes

theorem span_eq_drop_take (data : Bytes) (start stop : Nat) :
  data.span start stop = (data.toList.take stop).drop start
  := by
  rw [span, Array.toList_extract, List.extract_eq_take_drop, List.drop_take]

theorem length_span (data : Bytes) (start stop : Nat) :
  (data.span start stop).length = min stop data.size - start
  := by
  rw [span_eq_drop_take, List.length_drop, List.length_take, Array.length_toList]

theorem drop_span (data : Bytes) (start stop count : Nat) :
  (data.span start stop).drop count = data.span (start + count) stop
  := by
  rw [span_eq_drop_take, span_eq_drop_take, List.drop_drop]

theorem take_span (data : Bytes) (start : Nat) {middle stop : Nat} (h : middle ≤ stop) :
  (data.span start stop).take (middle - start) = data.span start middle
  := by
  rw [span_eq_drop_take, span_eq_drop_take, List.drop_take, List.drop_take, List.take_take,
    Nat.min_eq_left (by omega)]

theorem span_of_le (data : Bytes) {start stop : Nat} (h : stop ≤ start) :
  data.span start stop = []
  := by
  apply List.eq_nil_of_length_eq_zero
  rw [length_span]
  omega

/-- The bytes of a span are those of the buffer. -/
theorem getElem?_span (data : Bytes) {start stop i : Nat} (inside : start + i < stop) :
  (data.span start stop)[i]? = data[start + i]?
  := by
  rw [span, Array.getElem?_toList, Array.getElem?_extract]
  split
  · rfl
  · rw [Array.getElem?_eq_none]
    omega

/-- Buffers that hold the same bytes in a span inside both have the same span. -/
theorem span_congr {a b : Bytes} {start stop : Nat} (ha : stop ≤ a.size) (hb : stop ≤ b.size)
    (same : ∀ i, start ≤ i → i < stop → a[i]? = b[i]?) :
  a.span start stop = b.span start stop
  := by
  rw [span, span]
  congr 1
  apply Array.ext_getElem?
  intro i
  rw [Array.getElem?_extract, Array.getElem?_extract, Nat.min_eq_left ha, Nat.min_eq_left hb]
  split
  · apply same <;> omega
  · rfl

/-- The part of a region inside the buffer is the whole region if it ends inside. -/
theorem clamped_eq_span {data : Bytes} (small : data.size < space64) {start stop : Nat}
    (low : start ≤ stop) (high : stop ≤ data.size) :
  Region.clamped ⟨start, stop - start⟩ data = data.span start stop
  := by
  have ends : Region.stop ⟨start, stop - start⟩ = stop := by
    simp only [Region.stop, Region.end?, Nat.add_sub_cancel' low]
    rw [if_pos (by omega), Option.getD_some]
  rw [Region.clamped, ends, Nat.min_eq_left high, span]

end Bytes

namespace Gap

variable {data : Bytes} {f : Finder} {accepts : Candidate → Bool} {width stop cursor : Nat}
  {locations : List Nat}

/-- The candidates that are accepted around fields of `width` bytes: those that would be
accepted anyway and meet none of the fields. -/
def around (width : Nat) (locations : List Nat) (accepts : Candidate → Bool)
    (c : Candidate) : Bool :=
  decide (c.Avoids width locations) && accepts c

theorem around_of_meets {c : Candidate} {l : Nat} (h : l ∈ locations) (low : l < c.stop)
    (high : c.start < l + width) :
  around width locations accepts c = false
  := by
  have meets : ¬ c.Avoids width locations := by
    intro avoids
    have := avoids l h
    omega
  rw [around, decide_eq_false meets, Bool.false_and]

/-- A walk around the fields goes on behind a field that it has reached. -/
theorem walk_behind_field {l : Nat} (h : l ∈ locations) (reached : l ≤ cursor) :
  f.walk (around width locations accepts) cursor (data.span cursor stop)
    = f.walk (around width locations accepts) (max cursor (l + width))
      (data.span (max cursor (l + width)) stop)
  := by
  have skip : max cursor (l + width) = cursor + (max cursor (l + width) - cursor) := by
    omega
  rw [skip, ← Bytes.drop_span]
  apply Finder.walk_drop
  intro i hi m hm
  obtain ⟨early, long, -⟩ := Finder.candidate_bounds (cursor + i) hm
  have here : (m.candidate (cursor + i)).start = cursor + i := rfl
  apply around_of_meets h
  · omega
  · omega

/-- A walk around the fields may be cut in two where a field begins. -/
theorem walk_before_field {l : Nat} (h : l ∈ locations) (positive : 0 < width)
    (later : cursor ≤ l) (inside : l ≤ stop) :
  f.walk (around width locations accepts) cursor (data.span cursor stop)
    = f.walk (around width locations accepts) cursor (data.span cursor l)
      ++ f.walk (around width locations accepts) l (data.span l stop)
  := by
  rw [Finder.walk_split (l - cursor), Bytes.take_span data cursor inside, Bytes.drop_span,
    Nat.add_sub_cancel' later]
  intro i hi m hm cut
  have here : (m.candidate (cursor + i)).start = cursor + i := rfl
  have there : (m.candidate (cursor + i)).stop = cursor + i + m.length := rfl
  apply around_of_meets h
  · omega
  · omega

/-- Up to the first field no instruction meets a field. -/
theorem walk_up_to_field (before : ∀ l ∈ locations, stop ≤ l) :
  f.walk (around width locations accepts) cursor (data.span cursor stop)
    = f.walk accepts cursor (data.span cursor stop)
  := by
  apply Finder.walk_congr
  intro c low early long inside
  rw [Bytes.length_span] at inside
  have avoids : c.Avoids width locations := by
    intro l hl
    have := before l hl
    omega
  rw [around, decide_eq_true avoids, Bool.true_and]

/-- Fields that end before a walk begins do not matter to it. -/
theorem walk_append_fields {passed : List Nat} (bytes : List UInt8)
    (behind : ∀ l ∈ passed, l + width ≤ cursor) :
  f.walk (around width (passed ++ locations) accepts) cursor bytes
    = f.walk (around width locations accepts) cursor bytes
  := by
  apply Finder.walk_congr
  intro c low _ _ _
  have avoids : c.Avoids width (passed ++ locations) ↔ c.Avoids width locations := by
    simp only [Candidate.Avoids, List.forall_mem_append]
    apply and_iff_right
    intro l hl
    right
    apply Nat.le_trans (behind l hl) low
  rw [around, around, decide_eq_decide.mpr avoids]

/-- A walk around fields is a walk up to the first field, followed by a walk around the
others behind it. -/
theorem walk_across_field {l : Nat} (later : ∀ m ∈ locations, l ≤ m) (positive : 0 < width)
    (inside : l ≤ stop) :
  f.walk (around width (l :: locations) accepts) cursor (data.span cursor stop)
    = f.walk accepts cursor (data.span cursor l)
      ++ f.walk (around width locations accepts) (max cursor (l + width))
        (data.span (max cursor (l + width)) stop)
  := by
  have passed : ∀ m ∈ [l], m + width ≤ max cursor (l + width) := by
    intro m hm
    rw [List.mem_singleton.mp hm]
    apply Nat.le_max_right
  rw [← walk_append_fields _ passed, List.singleton_append]
  rcases Nat.lt_or_ge cursor l with before | reached
  · have front : f.walk (around width (l :: locations) accepts) cursor (data.span cursor l)
        = f.walk accepts cursor (data.span cursor l) := by
      apply walk_up_to_field
      exact List.forall_mem_cons.mpr ⟨Nat.le_refl l, later⟩
    have skip : max cursor (l + width) = max l (l + width) := by omega
    rw [walk_before_field List.mem_cons_self positive (Nat.le_of_lt before) inside, front,
      walk_behind_field List.mem_cons_self (Nat.le_refl l), skip]
  · rw [walk_behind_field List.mem_cons_self reached, Bytes.span_of_le data reached,
      Finder.walk_nil, List.nil_append]

/-- Walking in a piece is walking from its beginning to its end. -/
theorem flatMap_piece (small : data.size < space64) (inside : stop ≤ data.size) (cursor : Nat) :
  (piece cursor stop).flatMap (fun gap => f.walk accepts gap.offset (gap.clamped data))
    = f.walk accepts cursor (data.span cursor stop)
  := by
  rw [piece]
  split
  · next before =>
    rw [List.flatMap_singleton, Bytes.clamped_eq_span small (Nat.le_of_lt before) inside]
  · next reached =>
    rw [Bytes.span_of_le data (Nat.le_of_not_lt reached), Finder.walk_nil, List.flatMap_nil]

/-- Walking in the gaps from `cursor` on is walking around the fields from `cursor` on. -/
theorem flatMap_between (small : data.size < space64) (inside : stop ≤ data.size)
    (positive : 0 < width) (ascending : locations.Pairwise (· ≤ ·))
    (ends : ∀ l ∈ locations, l + width < space64) (cursor : Nat) :
  (between width stop cursor locations).flatMap
      (fun gap => f.walk accepts gap.offset (gap.clamped data))
    = f.walk (around width locations accepts) cursor (data.span cursor stop)
  := by
  induction ascending generalizing cursor with
  | nil => rw [between_nil, flatMap_piece small inside, walk_up_to_field (List.forall_mem_nil _)]
  | @cons l locations later _ ih =>
    obtain ⟨here, ends⟩ := List.forall_mem_cons.mp ends
    rcases Nat.lt_or_ge l stop with before | beyond
    · rw [between_of_lt before here, List.flatMap_append, ih ends,
        flatMap_piece small (Nat.le_trans (Nat.le_of_lt before) inside),
        walk_across_field later positive (Nat.le_of_lt before)]
    · rw [between_of_beyond beyond, flatMap_piece small inside, walk_up_to_field]
      exact List.forall_mem_cons.mpr
        ⟨beyond, fun m hm => Nat.le_trans beyond (later m hm)⟩

/-- Walking in the gaps of a region is walking through the region around the fields. -/
theorem flatMap_ofRegion (small : data.size < space64) {region : Region}
    (inside : region.offset + region.size ≤ data.size) (positive : 0 < width)
    (ascending : locations.Pairwise (· ≤ ·)) (ends : ∀ l ∈ locations, l + width < space64) :
  (ofRegion width region locations).flatMap
      (fun gap => f.walk accepts gap.offset (gap.clamped data))
    = f.walk (around width locations accepts) region.offset
      (data.span region.offset (region.offset + region.size))
  := by
  have stop : region.stop = region.offset + region.size := by
    rw [Region.stop, Region.end?, if_pos (by omega), Option.getD_some]
  obtain ⟨passed, rest, rfl, behind, gaps⟩ := exists_ofRegion_eq region ends
  obtain ⟨-, ascending, -⟩ := List.pairwise_append.mp ascending
  obtain ⟨-, ends⟩ := List.forall_mem_append.mp ends
  rw [gaps, stop, flatMap_between small inside positive ascending ends,
    walk_append_fields _ behind]

end Gap

end ImageRefs
