import ImageRefs.Proofs.Branch.PlainScan
import ImageRefs.Proofs.Checked.Location
import ImageRefs.Proofs.Checked.Reloc

/-!
# Checked scans for branches

A scan keeps a cursor and the end of its region, which lies inside the image.  A search cuts
what lies between them out of the image, and moves the cursor on where no branch is recognised
(`Checked.seekStep_cases`).  A scan repeats searches, each from behind the branch that has been
accepted or from the byte behind the start of the one that has been refused
(`Checked.scanStep_cases`).  The cursor moves on in every step and never passes the end, so
neither has a fault and both come to an end; the branches are those of the image
(`Checked.scan_eq_ok`).
-/

namespace ImageRefs.Checked

/-- A step of the search for the next branch before `stop`. -/
def seekStep (f : Finder) (data : Bytes) (stop cursor : Nat) :
    Checked (Nat ⊕ Option Candidate) :=
  if cursor < stop then do
    let ahead ← window data.toList cursor stop
    match f.nextCandidate? ahead with
    | none => .ok (.inr none)
    | some skipped => do
      let start ← sum space64 cursor skipped
      let code ← window data.toList start stop
      match f.match? code with
      | some m => do
        let location ← sum space64 start m.displacementOffset
        let behind ← sum space64 start m.length
        .ok (.inr (some ⟨start, location, behind, m.mayLeaveSection⟩))
      | none => do
        let next ← sum space64 start 1
        .ok (.inl next)
  else
    .ok (.inr none)

/-- How far a scan has come: where it goes on if no branch has been refused there, the branch
that has been refused last, and the locations of the branches that have been accepted. -/
structure ScanState where
  cursor : Nat
  refused : Option Candidate
  found : List Nat

/-- `Image.accepts`, checked; the displacement that is judged must be there. -/
def accepts (image : Image) (s : Section) (c : Candidate) (location : Nat) : Checked Bool := do
  let word ← demand (image.bytes.read? displacementWidth c.location)
  match ← relativeTarget image.addressSpace location (signed32 word) with
  | none => .ok false
  | some rva =>
    .ok (if c.mayLeaveSection || !image.options.branches.stayInSection then
      image.loadMap.validRva rva
    else
      s.containsRva rva)

/-- Where a scan goes on: at the byte behind the start of the branch that has been refused
last. -/
def resume (t : ScanState) : Checked Nat :=
  match t.refused with
  | some refused => sum space64 refused.start 1
  | none => .ok t.cursor

/-- A step of a scan: it looks for the next branch and judges it. -/
def scanStep (image : Image) (s : Section) (stop : Nat) (t : ScanState) :
    Checked (ScanState ⊕ List Nat) := do
  let cursor ← resume t
  match ← iterate (seekStep image.finder image.bytes stop) (image.bytes.size + 1) cursor with
  | none => .ok (.inr t.found)
  | some candidate =>
    let location ← narrow candidate.location
    if ← accepts image s candidate location then
      .ok (.inl ⟨candidate.stop, none, t.found ++ [location]⟩)
    else
      .ok (.inl ⟨cursor, some candidate, t.found⟩)

/-- The locations of `Image.branchesIn`, checked. -/
def scan (image : Image) (s : Section) (region : Region) : Checked (List Nat) :=
  let stop := min region.stop image.bytes.size
  iterate (scanStep image s stop) (image.bytes.size + 1) ⟨min region.offset stop, none, []⟩

/-- `Image.branchesAround`, checked. -/
def branchesAround (image : Image) (avoided : List Nat) : Checked (List Nat) := do
  let found ← image.codeSections.mapM fun s => do
    let regions ← gaps image.width.bytes s.scanRegion avoided
    let locations ← regions.mapM (scan image s)
    .ok locations.flatten
  spaced displacementWidth none found.flatten.mergeSort

/-- `Image.branchLocations`, checked. -/
def branchLocations (image : Image) : Checked (List Nat) := do
  if image.options.branches.avoidRelocations then
    let table ← relocTable image
    branchesAround image table.locations
  else
    branchesAround image []

/-! ### Searches -/

/-- The branch that a search finds. -/
def seekResult (f : Finder) (data : Bytes) (stop cursor : Nat) : Option Candidate :=
  (f.seek? cursor (data.span cursor stop)).map fun s => s.found.candidate s.position

section Seek

variable {f : Finder} {data : Bytes} {stop : Nat} (small : data.size < space32)
  (inside : stop ≤ data.size)
include inside

/-- What lies before `stop` is cut out of the buffer without a fault. -/
theorem window_eq_span {cursor : Nat} (order : cursor ≤ stop) :
  window data.toList cursor stop = .ok (data.span cursor stop)
  := by
  rw [window_eq_ok order inside, Bytes.span_eq_drop_take]

include small

/-- A step of a search has no fault.  It ends the search, or moves the cursor on, not past the
end. -/
theorem seekStep_cases {cursor : Nat} (order : cursor ≤ stop) :
  seekStep f data stop cursor = .ok (.inr (seekResult f data stop cursor))
    ∨ ∃ next, seekStep f data stop cursor = .ok (.inl next) ∧ next ≤ stop
      ∧ stop - next < stop - cursor
      ∧ seekResult f data stop next = seekResult f data stop cursor
  := by
  have wide : space32 + 8 ≤ space64 := by decide
  have length := data.length_span cursor stop
  rw [seekStep, seekResult]
  rcases Nat.eq_or_lt_of_le order with rfl | before
  · left
    rw [if_neg (Nat.lt_irrefl _), Bytes.span_of_le data (Nat.le_refl _),
      Finder.seek?_of_nextCandidate?_eq_none rfl, Option.map_none]
  · rw [if_pos before, window_eq_span inside order, ok_bind]
    cases next : f.nextCandidate? (data.span cursor stop) with
    | none =>
      left
      rw [Finder.seek?_of_nextCandidate?_eq_none next, Option.map_none]
    | some skipped =>
      have behind := (List.findIdx?_eq_some_iff_getElem.mp next).1
      dsimp only
      rw [sum_eq_ok (by omega), ok_bind, window_eq_span inside (by omega), ok_bind,
        Finder.seek?_of_nextCandidate? next, Bytes.drop_span, Bytes.drop_span]
      cases found : f.match? (data.span (cursor + skipped) stop) with
      | some m =>
        left
        obtain ⟨-, long, fits⟩ := Finder.of_match? found
        rw [Bytes.length_span] at fits
        dsimp only
        rw [sum_eq_ok (by omega), ok_bind, sum_eq_ok (by omega), ok_bind]
        rfl
      | none =>
        right
        dsimp only
        rw [sum_eq_ok (by omega), ok_bind]
        refine ⟨_, rfl, by omega, by omega, rfl⟩

/-- A search has no fault and comes to an end. -/
theorem seek_eq_ok {cursor : Nat} (order : cursor ≤ stop) :
  iterate (seekStep f data stop) (data.size + 1) cursor = .ok (seekResult f data stop cursor)
  := by
  apply iterate_eq_ok (fun cursor => cursor ≤ stop) (fun cursor => stop - cursor)
  · intro cursor
    apply seekStep_cases small inside
  · apply order
  · omega

end Seek

/-! ### Scans -/

/-- Where a walk byte by byte stands when a scan goes on. -/
def ScanState.position (t : ScanState) : Nat :=
  match t.refused with
  | some refused => refused.start + 1
  | none => t.cursor

theorem ScanState.position_of_accepted (cursor : Nat) (found : List Nat) :
  (⟨cursor, none, found⟩ : ScanState).position = cursor
  := rfl

theorem ScanState.position_of_refused (cursor : Nat) (c : Candidate) (found : List Nat) :
  (⟨cursor, some c, found⟩ : ScanState).position = c.start + 1
  := rfl

/-- The locations that a scan has found when it has come to an end. -/
def scanResult (image : Image) (s : Section) (stop : Nat) (t : ScanState) : List Nat :=
  t.found ++ (image.finder.walk (image.accepts s) t.position
    (image.bytes.span t.position stop)).map (·.location)

section

variable {f : Finder} {data : Bytes} {stop cursor : Nat}

theorem walk_of_seekResult_eq_none {judge : Candidate → Bool}
    (h : seekResult f data stop cursor = none) :
  f.walk judge cursor (data.span cursor stop) = []
  := by
  apply Finder.walk_of_seek?_eq_none
  apply Option.map_eq_none_iff.mp h

/-- A walk may begin at the branch that a search finds, and the branch is recognised there. -/
theorem walk_of_seekResult (judge : Candidate → Bool) {c : Candidate}
    (h : seekResult f data stop cursor = some c) :
  cursor ≤ c.start
    ∧ (∃ m, f.match? (data.span c.start stop) = some m ∧ m.candidate c.start = c)
    ∧ f.walk judge cursor (data.span cursor stop) = f.walk judge c.start (data.span c.start stop)
  := by
  obtain ⟨sighting, found, rfl⟩ := Option.map_eq_some_iff.mp h
  obtain ⟨low, rest⟩ := Finder.rest_of_seek? found
  rw [Bytes.drop_span, Nat.add_sub_cancel' low] at rest
  have recognised := (Finder.of_seek? found).1
  have walk : f.walk judge cursor (data.span cursor stop)
      = f.walk judge sighting.position sighting.rest := Finder.walk_of_seek? found
  rw [rest] at recognised walk
  exact ⟨low, ⟨sighting.found, recognised, rfl⟩, walk⟩

end

section Scan

variable {image : Image} {s : Section} {stop : Nat} (small : image.bytes.size < space32)
  (bounded : ∀ m ∈ image.loadMap.mappings, m.Bounded) (inside : stop ≤ image.bytes.size)

include bounded in
/-- A branch is judged without a fault if its displacement lies inside the image. -/
theorem accepts_eq_ok {c : Candidate}
    (fits : c.location + displacementWidth ≤ image.bytes.size) :
  accepts image s c c.location = .ok (image.accepts s c)
  := by
  obtain ⟨word, read⟩ := Bytes.exists_read? fits
  rw [accepts, Image.accepts, AddressSpace.storedTarget?, read, demand, ok_bind,
    relativeTarget_eq_ok bounded rfl, ok_bind, Option.bind_some]
  cases image.addressSpace.relativeTarget? c.location (signed32 word) with
  | none => rfl
  | some rva => rfl

include small inside

theorem resume_eq_ok {t : ScanState} (order : t.position ≤ stop) :
  resume t = .ok t.position
  := by
  have wide : space32 < space64 := by decide
  rw [resume]
  rw [ScanState.position] at order ⊢
  split
  · next refused h =>
    rw [h] at order
    apply sum_eq_ok
    dsimp only at order
    omega
  · rfl

include bounded

/-- A branch that a search has found is judged without a fault, and the scan moves on behind it
or to the next byte. -/
theorem scanStep_of_found {t : ScanState} (order : t.position ≤ stop) {c : Candidate}
    (found : seekResult image.finder image.bytes stop t.position = some c) :
  ∃ next, scanStep image s stop t = .ok (.inl next) ∧ next.position ≤ stop
    ∧ stop - next.position < stop - t.position
    ∧ scanResult image s stop next = scanResult image s stop t
  := by
  obtain ⟨low, ⟨m, recognised, here⟩, walk⟩ := walk_of_seekResult (image.accepts s) found
  obtain ⟨early, long, fits⟩ := Finder.candidate_bounds c.start recognised
  have behind : (m.candidate c.start).stop = c.start + m.length := rfl
  rw [here] at early long fits behind
  rw [Bytes.length_span] at fits
  rw [scanStep, resume_eq_ok small inside order, ok_bind, seek_eq_ok small inside order, ok_bind,
    found]
  dsimp only
  rw [narrow_eq_ok (by omega), ok_bind, accepts_eq_ok bounded (by omega), ok_bind]
  cases judged : image.accepts s c with
  | true =>
    have next : image.finder.walk (image.accepts s) c.start (image.bytes.span c.start stop)
        = c :: image.finder.walk (image.accepts s) c.stop (image.bytes.span c.stop stop) := by
      rw [Finder.walk_of_accepted recognised (by rw [here, judged]), here, Bytes.drop_span,
        ← behind]
    use ⟨c.stop, none, t.found ++ [c.location]⟩, rfl
    rw [ScanState.position_of_accepted, scanResult, scanResult, ScanState.position_of_accepted,
      walk, next, List.map_cons, ← List.append_cons]
    use by omega, by omega
  | false =>
    have next : image.finder.walk (image.accepts s) c.start (image.bytes.span c.start stop)
        = image.finder.walk (image.accepts s) (c.start + 1)
          (image.bytes.span (c.start + 1) stop) := by
      rw [Finder.walk_of_refused, Bytes.drop_span]
      intro n hn
      cases recognised.symm.trans hn
      rw [here, judged]
    use ⟨t.position, some c, t.found⟩, rfl
    rw [ScanState.position_of_refused, scanResult, scanResult, ScanState.position_of_refused,
      walk, next]
    use by omega, by omega

/-- A step of a scan has no fault.  It ends the scan, or moves on, not past the end. -/
theorem scanStep_cases {t : ScanState} (order : t.position ≤ stop) :
  scanStep image s stop t = .ok (.inr (scanResult image s stop t))
    ∨ ∃ next, scanStep image s stop t = .ok (.inl next) ∧ next.position ≤ stop
      ∧ stop - next.position < stop - t.position
      ∧ scanResult image s stop next = scanResult image s stop t
  := by
  cases found : seekResult image.finder image.bytes stop t.position with
  | none =>
    left
    rw [scanStep, resume_eq_ok small inside order, ok_bind, seek_eq_ok small inside order,
      ok_bind, found, scanResult, walk_of_seekResult_eq_none found, List.map_nil,
      List.append_nil]
  | some c =>
    right
    apply scanStep_of_found small bounded inside order found

end Scan

section Image

variable {image : Image} (small : image.bytes.size < space32)
  (bounded : ∀ m ∈ image.loadMap.mappings, m.Bounded)

/-- The displacements of the branches in a region lie inside the image. -/
theorem fits_of_mem_branchesIn {s : Section} {region : Region} {c : Candidate}
    (h : c ∈ image.branchesIn s region) :
  c.location + displacementWidth ≤ image.bytes.size
  := by
  rw [Image.branchesIn_eq_walk] at h
  obtain ⟨low, early, long, inside, -⟩ := Finder.of_mem_walk h
  have length := image.bytes.length_span region.offset (min region.stop image.bytes.size)
  rw [Region.clamped, ← Bytes.span, length] at inside
  omega

include small bounded

/-- A scan of a region, which need not lie inside the image, has no fault and comes to an
end. -/
theorem scan_eq_ok (s : Section) (region : Region) :
  scan image s region = .ok ((image.branchesIn s region).map (·.location))
  := by
  have inside := Nat.min_le_right region.stop image.bytes.size
  have ends : scan image s region = .ok (scanResult image s (min region.stop image.bytes.size)
      ⟨min region.offset (min region.stop image.bytes.size), none, []⟩) := by
    apply iterate_eq_ok (fun t => t.position ≤ min region.stop image.bytes.size)
      (fun t => min region.stop image.bytes.size - t.position)
    · intro t
      apply scanStep_cases small bounded inside
    · apply Nat.min_le_right
    · omega
  rw [ends, scanResult, ScanState.position_of_accepted, List.nil_append,
    Image.branchesIn_eq_walk, Region.clamped, ← Bytes.span]
  rcases Nat.le_total region.offset (min region.stop image.bytes.size) with order | beyond
  · rw [Nat.min_eq_left order]
  · rw [Nat.min_eq_right beyond, Bytes.span_of_le _ beyond, Bytes.span_of_le _ (Nat.le_refl _),
      Finder.walk_nil, Finder.walk_nil]

/-- The branches are found without a fault around fields whose ends can be represented. -/
theorem branchesAround_eq_ok {avoided : List Nat}
    (ends : ∀ l ∈ avoided, l + image.width.bytes < space64) :
  branchesAround image avoided = .ok (image.branchesAround avoided)
  := by
  have sections : (image.codeSections.mapM fun s => do
        let regions ← gaps image.width.bytes s.scanRegion avoided
        let locations ← regions.mapM (scan image s)
        .ok locations.flatten)
      = .ok (image.codeSections.map fun s =>
        (image.sectionBranches avoided s).map (·.location)) := by
    apply mapM_eq_ok
    intro s _
    rw [gaps_eq_ok ends, ok_bind, mapM_eq_ok fun region _ => scan_eq_ok small bounded s region,
      ok_bind, Image.sectionBranches, List.map_flatMap, List.flatMap_def]
  rw [branchesAround, sections, ok_bind, Image.branchesAround, ← List.flatMap_def, spaced_eq_ok]
  intro l hl
  obtain ⟨s, -, hl⟩ := List.mem_flatMap.mp hl
  obtain ⟨c, hc, rfl⟩ := List.mem_map.mp hl
  obtain ⟨region, -, hc⟩ := List.mem_flatMap.mp hc
  apply Nat.lt_of_le_of_lt (fits_of_mem_branchesIn hc) small

/-- The locations of branches are computed without a fault. -/
theorem branchLocations_eq_ok :
  branchLocations image = .ok image.branchLocations
  := by
  have small64 : image.bytes.size < space64 := Nat.lt_trans small (by decide)
  rw [branchLocations, Image.branchLocations, Image.avoidedLocations]
  split
  · rw [relocTable_eq_ok small bounded, ok_bind, branchesAround_eq_ok small bounded]
    intro l hl
    apply Nat.lt_of_le_of_lt (Image.fits_of_mem_reloc hl) small64
  · apply branchesAround_eq_ok small bounded
    apply List.forall_mem_nil

end Image

end ImageRefs.Checked
