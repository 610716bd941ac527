import ImageRefs.Proofs.Checked.Location
import ImageRefs.Proofs.Reference.Apart
import ImageRefs.Proofs.Reference.Read
import ImageRefs.Proofs.Reference.Unchanged
import ImageRefs.Proofs.Reference.WriteEach
import Mathlib.Data.List.Chain

/-!
# Reading in windows

The locations of a window are cut out of an ascending list at two places, and each place is
found by bisection, without a look at the other.

* The two bisections cut out the locations that lie in the window (`Locations.cut_eq_within`).
* Where one window ends the next one can begin (`Image.references_append`), so an image can be
  read in any number of windows (`Image.flatMap_references`).
* A parsed image has no reference outside of the window from zero up to the largest offset
  (`Image.references_windows`).
-/

namespace ImageRefs

/-! ### Bisection -/

namespace Locations

/-- The place of the first location that is not below `bound`, if it lies from `first` on and
not behind `last`: the range of places is halved until it is empty. -/
def bisect (locations : List Nat) (bound : Nat) (first last : Nat) : Nat :=
  if first < last then
    let middle := first + (last - first) / 2
    if locations.getD middle 0 < bound then bisect locations bound (middle + 1) last
    else bisect locations bound first middle
  else
    first
termination_by last - first

/-- The locations between the place of `low` and that of `high`, none if the second comes
before the first. -/
def cut (low high : Nat) (locations : List Nat) : List Nat :=
  let start := bisect locations low 0 locations.length
  let stop := max (bisect locations high 0 locations.length) start
  (locations.take stop).drop start

/-- A bisection of an ascending list ends where its locations end to lie below the bound, if
this is in the range from which it begins. -/
theorem bisect_eq {locations : List Nat} (ascending : locations.Pairwise (· ≤ ·))
    {bound first last : Nat} (order : first ≤ last) (inside : last ≤ locations.length)
    (below : ∀ i, (h : i < locations.length) → i < first → locations[i] < bound)
    (above : ∀ i, (h : i < locations.length) → last ≤ i → bound ≤ locations[i]) :
  bisect locations bound first last = Checked.partitionPoint (Checked.below bound) locations
  := by
  have mono {i j : Nat} (hj : j < locations.length) (h : i < j) : locations[i] ≤ locations[j] :=
    List.pairwise_iff_getElem.mp ascending i j _ hj h
  fun_induction bisect locations bound first last with
  | case1 first last more middle low ih =>
    have hmiddle : middle < locations.length := by omega
    rw [← List.getElem_eq_getD (h := hmiddle)] at low
    apply ih (by omega) inside _ above mono
    intro i h hi
    rcases Nat.lt_succ_iff_lt_or_eq.mp hi with early | rfl
    · apply Nat.lt_of_le_of_lt (mono hmiddle early) low
    · apply low
  | case2 first last more middle high ih =>
    have hmiddle : middle < locations.length := by omega
    rw [← List.getElem_eq_getD (h := hmiddle)] at high
    apply ih (by omega) (by omega) below _ mono
    intro i h hi
    apply Nat.le_trans (Nat.le_of_not_lt high)
    rcases Nat.eq_or_lt_of_le hi with rfl | late
    · apply Nat.le_refl
    · apply mono h late
  | case3 first last ended =>
    symm
    rcases Nat.eq_or_lt_of_le (Nat.le_trans order inside) with rfl | here
    · apply List.findIdx_eq_length.mpr
      intro l hl
      obtain ⟨i, hi, rfl⟩ := List.getElem_of_mem hl
      simp only [Checked.below, decide_eq_true (below i hi hi), Bool.not_true]
    · apply (List.findIdx_eq here).mpr
      constructor
      · have := above first here (by omega)
        simp only [Checked.below, Bool.not_eq_true', decide_eq_false_iff_not]
        omega
      · intro i hi
        simp only [Checked.below, decide_eq_true (below i (by omega) hi), Bool.not_true]

/-- What two bisections cut out of an ascending list is the window. -/
theorem cut_eq_within {locations : List Nat} (ascending : locations.Pairwise (· ≤ ·))
    (low high : Nat) :
  cut low high locations = within low high locations
  := by
  have place (bound : Nat) : bisect locations bound 0 locations.length
      = Checked.partitionPoint (Checked.below bound) locations := by
    apply bisect_eq ascending (Nat.zero_le _) (Nat.le_refl _)
    · intro i _ h
      cases h
    · intro i h h'
      omega
  have window := Checked.within_eq_ok low high locations
  rw [Checked.within, Checked.window_eq_ok (Nat.le_max_right _ _)
    (Nat.max_le.mpr ⟨Checked.partitionPoint_le _ _, Checked.partitionPoint_le _ _⟩)] at window
  rw [cut, place, place]
  apply Except.ok.inj window

/-! ### Windows that follow each other -/

/-- Where the elements end to meet a condition, those that meet a weaker one go on. -/
theorem takeWhile_append_takeWhile {p q : Nat → Bool}
    (weaker : ∀ l, p l = true → q l = true) (locations : List Nat) :
  locations.takeWhile p ++ (locations.dropWhile p).takeWhile q = locations.takeWhile q
  := by
  induction locations with
  | nil => rfl
  | cons l locations ih =>
    by_cases h : p l = true
    · rw [List.takeWhile_cons_of_pos h, List.dropWhile_cons_of_pos h,
        List.takeWhile_cons_of_pos (weaker l h), List.cons_append, ih]
    · rw [List.takeWhile_cons_of_neg h, List.dropWhile_cons_of_neg h, List.nil_append]

/-- Leaving out the leading elements that meet a condition, and then those that meet a weaker
one, is leaving out the latter. -/
theorem dropWhile_dropWhile {p q : Nat → Bool} (weaker : ∀ l, p l = true → q l = true)
    (locations : List Nat) :
  (locations.dropWhile p).dropWhile q = locations.dropWhile q
  := by
  induction locations with
  | nil => rfl
  | cons l locations ih =>
    by_cases h : p l = true
    · rw [List.dropWhile_cons_of_pos h, List.dropWhile_cons_of_pos (weaker l h), ih]
    · rw [List.dropWhile_cons_of_neg h]

/-- A window is the part of it below a place in it, and then the rest. -/
theorem within_append {low middle high : Nat} (lower : low ≤ middle) (upper : middle ≤ high)
    (locations : List Nat) :
  within low middle locations ++ within middle high locations = within low high locations
  := by
  have weaker {a b : Nat} (h : a ≤ b) (l : Nat) :
      decide (l < a) = true → decide (l < b) = true := by
    simp only [decide_eq_true_iff]
    omega
  rw [within, within, within, ← dropWhile_dropWhile (weaker lower) locations,
    takeWhile_append_takeWhile (weaker upper)]

/-- There is nothing in a window that ends where it begins, or before. -/
theorem within_of_le {low high : Nat} (h : high ≤ low) (locations : List Nat) :
  within low high locations = []
  := by
  rw [within]
  have first := List.head?_dropWhile_not (fun l => decide (l < low)) locations
  cases hrest : locations.dropWhile (fun l => decide (l < low)) with
  | nil => rfl
  | cons l rest =>
    rw [hrest] at first
    apply List.takeWhile_cons_of_neg
    simp only [List.head?_cons, decide_eq_false_iff_not, decide_eq_true_iff] at first ⊢
    omega

end Locations

/-! ### References -/

namespace Image

variable {image : Image} {kind : ReferenceKind}

/-- The locations of either kind ascend. -/
theorem pairwise_locations (image : Image) (kind : ReferenceKind) :
  (image.locations kind).Pairwise (· < ·)
  := by
  cases kind with
  | reloc => apply pairwise_locations_reloc
  | rel32 =>
    apply image.pairwise_locations_rel32.imp
    intro l m before
    apply Nat.lt_of_lt_of_le _ before
    apply Nat.lt_add_of_pos_right (by decide)

/-- The references of a window are those read at the locations that two bisections cut out. -/
theorem references_eq_readAll_cut (image : Image) (kind : ReferenceKind) (low high : Nat) :
  image.references kind low high
    = image.addressSpace.readAll kind image.bytes
      (Locations.cut low high (image.locations kind))
  := by
  rw [references, Locations.cut_eq_within ((image.pairwise_locations kind).imp Nat.le_of_lt)]

/-- A window is read as the part of it below a place in it, and then the rest. -/
theorem references_append {low middle high : Nat} (lower : low ≤ middle)
    (upper : middle ≤ high) :
  image.references kind low middle ++ image.references kind middle high
    = image.references kind low high
  := by
  rw [references, references, references, AddressSpace.readAll, AddressSpace.readAll,
    AddressSpace.readAll, ← List.filterMap_append, Locations.within_append lower upper]

/-- There is no reference in a window that ends where it begins, or before. -/
theorem references_of_le {low high : Nat} (h : high ≤ low) :
  image.references kind low high = []
  := by
  rw [references, Locations.within_of_le h]
  rfl

/-- Reading the windows between bounds that do not descend, one after the other, is reading the
window from the first bound up to the last one. -/
theorem flatMap_references {first : Nat} {bounds : List Nat}
    (order : (first :: bounds).IsChain (· ≤ ·)) :
  ((first :: bounds).zip bounds).flatMap (fun w => image.references kind w.1 w.2)
    = image.references kind first (bounds.getLastD first)
  := by
  induction bounds generalizing first with
  | nil =>
    rw [List.zip_nil_right, List.flatMap_nil, List.getLastD_nil, references_of_le (Nat.le_refl _)]
  | cons next bounds ih =>
    obtain ⟨step, order⟩ := List.isChain_cons_cons.mp order
    have last : next ≤ bounds.getLastD next := by
      rcases List.eq_nil_or_concat bounds with rfl | ⟨between, last, rfl⟩
      · apply Nat.le_refl
      · rw [List.concat_eq_append, List.getLastD_concat]
        apply List.rel_of_pairwise_cons (List.isChain_iff_pairwise.mp order)
        simp
    rw [List.zip_cons_cons, List.flatMap_cons, ih order, List.getLastD_cons,
      references_append step last]

/-- The references of a window are those of the image whose locations lie in it. -/
theorem references_eq_filter (image : Image) (kind : ReferenceKind) (low high : Nat) :
  image.references kind low high
    = (image.addressSpace.readAll kind image.bytes (image.locations kind)).filter
      fun r => decide (low ≤ r.location ∧ r.location < high)
  := by
  have ascending := (image.pairwise_locations kind).imp Nat.le_of_lt
  rw [references, Locations.within_eq_filter ascending, AddressSpace.readAll,
    AddressSpace.readAll, List.filter_filterMap, List.filterMap_filter]
  apply List.filterMap_congr
  intro l _
  cases h : image.addressSpace.read? kind image.bytes l with
  | none => simp
  | some r =>
    have here := (AddressSpace.stored_of_read? image.based_addressSpace h).1
    simp [here, Option.filter_some]

/-- Reading a parsed image in windows.

* The references of a window are read at the locations that two bisections cut out, and they
  are those of the image whose locations lie in the window.
* The locations of the references of the image ascend, so none of them is there twice.
* Reading windows between bounds that do not descend, one after the other, gives what reading
  the window from the first bound up to the last one gives.
* The window from zero up to the largest offset holds all locations, so all references of the
  image are read in it.
* There is no reference in a window that ends where it begins, or before. -/
theorem references_windows {width : Width} {options : Options} {data : Bytes}
    (h : parse width options data = .ok image) (kind : ReferenceKind) :
  (∀ low high,
      image.references kind low high
          = image.addressSpace.readAll kind image.bytes
            (Locations.cut low high (image.locations kind))
        ∧ image.references kind low high
          = (image.addressSpace.readAll kind image.bytes (image.locations kind)).filter
            fun r => decide (low ≤ r.location ∧ r.location < high))
    ∧ ((image.addressSpace.readAll kind image.bytes (image.locations kind)).map
        (·.location)).Pairwise (· < ·)
    ∧ (∀ first bounds, (first :: bounds).IsChain (· ≤ ·) →
      ((first :: bounds).zip bounds).flatMap (fun w => image.references kind w.1 w.2)
        = image.references kind first (bounds.getLastD first))
    ∧ (∀ l ∈ image.locations kind, l < space32 - 1)
    ∧ image.references kind 0 (space32 - 1)
      = image.addressSpace.readAll kind image.bytes (image.locations kind)
    ∧ ∀ low high, high ≤ low → image.references kind low high = []
  := by
  have wf := wellFormed_of_parse h
  have sublist : ((image.addressSpace.readAll kind image.bytes (image.locations kind)).map
      (·.location)).Sublist (image.locations kind) :=
    AddressSpace.map_location_readAll_sublist image.based_addressSpace _
  have small : ∀ l ∈ image.locations kind, l < space32 - 1 := by
    intro l hl
    have fits := fits_of_mem_locations wf hl
    have positive := AddressSpace.fieldWidth_pos kind image.width
    have := wf.size_lt
    omega
  and_intros
  · intro low high
    use image.references_eq_readAll_cut kind low high, image.references_eq_filter kind low high
  · apply (image.pairwise_locations kind).sublist sublist
  · intro first bounds
    apply flatMap_references
  · apply small
  · rw [references_eq_filter]
    apply List.filter_eq_self.mpr
    intro r hr
    apply decide_eq_true
    use Nat.zero_le _
    apply small _ (sublist.subset (List.mem_map_of_mem hr))
  · intro low high
    apply references_of_le

/-- In the sample both relative fields are read in three windows, of which the second one is
empty, and no window goes backwards. -/
theorem references_windows_sample :
  sample.references .rel32 0 0x13A ++ sample.references .rel32 0x13A 0x13A
        ++ sample.references .rel32 0x13A (space32 - 1)
      = sample.addressSpace.readAll .rel32 sample.bytes [0x139, 0x144]
    ∧ sample.references .reloc 0x149 0x13E = []
  := by
  obtain ⟨-, -, windows, -, all, -⟩ := references_windows parse_sampleBytes .rel32
  obtain ⟨-, -, -, -, -, reversed⟩ := references_windows parse_sampleBytes .reloc
  constructor
  · have three := windows 0 [0x13A, 0x13A, space32 - 1] (by simp [space32])
    simp only [List.zip_cons_cons, List.zip_nil_right, List.flatMap_cons, List.flatMap_nil,
      List.append_nil, ← List.append_assoc] at three
    rw [three, List.getLastD_cons, List.getLastD_cons, List.getLastD_cons, List.getLastD_nil, all,
      locations_rel32_sample]
  · apply reversed _ _ (by decide)

end Image

end ImageRefs
