import ImageRefs.Image.Session
import ImageRefs.Proofs.Image.Parsed
import ImageRefs.Proofs.Reloc.Format

/-!
# What a session answers

A session computes a table when a call asks for it, and keeps it.  Which tables it keeps after
any calls can be told from the calls (`Session.reached_eq`): that of the base relocations if one
of them asked for it, and that of the branches if one asked for that.  A call that asks for
branches asks for base relocations too, if these are to be avoided.

So the answers do not depend on the calls before, and the states depend on them only in whether
the table has been asked for (`Session.answer_reached`).
-/

namespace ImageRefs

/-- A call of a session. -/
inductive Call where
  | references (kind : ReferenceKind) (low high : Nat)
  | locations (kind : ReferenceKind)
  | blocks
  /-- Writing a reference into a buffer of the caller. -/
  | write (kind : ReferenceKind) (data : Bytes) (reference : Reference)
  | offsetToRva (offset : Nat)
  | rvaToOffset (rva : Nat)
  | validOffset (offset : Nat)
  | validRva (rva : Nat)
  | addressToRva (address : Nat)
  | rvaToAddress (rva : Nat)
  | describe
  deriving DecidableEq

namespace Call

/-- The call asks for the base relocations.  Calls about branches do if the base relocations
are to be avoided. -/
def asksRelocs (avoid : Bool) : Call → Bool
  | references kind _ _ | locations kind => decide (kind = .reloc) || avoid
  | blocks => true
  | _ => false

/-- The call asks for the branches. -/
def asksBranches : Call → Bool
  | references kind _ _ | locations kind => decide (kind = .rel32)
  | _ => false

/-- Branches are not asked for without the base relocations, if these are to be avoided. -/
theorem asksRelocs_of_asksBranches {call : Call} (h : call.asksBranches = true) :
  call.asksRelocs true = true
  := by
  cases call with
  | references kind low high => apply Bool.or_true
  | locations kind => apply Bool.or_true
  | _ => cases h

end Call

/-- The answer to a call. -/
inductive Reply where
  | references (references : List Reference)
  | locations (locations : List Nat)
  | blocks (blocks : List RelocBlock)
  | buffer (data : Bytes)
  | number (number : Option Nat)
  | flag (flag : Bool)
  | text (text : String)
  deriving DecidableEq

namespace Session

/-- The answer to a call, and the session after it. -/
def answer (s : Session) : Call → Reply × Session
  | .references kind low high => (s.references kind low high).map .references id
  | .locations kind => (s.locations kind).map .locations id
  | .blocks => s.blocks.map .blocks id
  | .write kind data reference =>
    (.buffer (s.image.addressSpace.write kind data reference), s)
  | .offsetToRva offset => (.number (s.image.loadMap.offsetToRva? offset), s)
  | .rvaToOffset rva => (.number (s.image.loadMap.rvaToOffset? rva), s)
  | .validOffset offset => (.flag (s.image.loadMap.validOffset offset), s)
  | .validRva rva => (.flag (s.image.loadMap.validRva rva), s)
  | .addressToRva address => (.number (s.image.addressSpace.addressToRva? address), s)
  | .rvaToAddress rva => (.number (some (s.image.addressSpace.rvaToAddress rva)), s)
  | .describe => (.text s.describe, s)

/-- The session of an image after a list of calls. -/
def reached (image : Image) (calls : List Call) : Session :=
  calls.foldl (fun s call => (s.answer call).2) (start image)

/-! ### Sessions that keep tables of the image -/

/-- The session of an image that keeps the table of base relocations or not, and the table of
branches or not. -/
def keeping (image : Image) (relocs branches : Bool) : Session where
  image := image
  relocs := if relocs then some image.relocTable else none
  branches := if branches then some image.branchLocations else none

variable {image : Image} {relocs branches : Bool}

theorem start_eq_keeping (image : Image) :
  start image = keeping image false false
  := rfl

theorem relocTable_keeping (image : Image) (relocs branches : Bool) :
  (keeping image relocs branches).relocTable
    = (image.relocTable, keeping image true branches)
  := by
  cases relocs <;> rfl

theorem blocks_keeping (image : Image) (relocs branches : Bool) :
  (keeping image relocs branches).blocks
    = (image.relocTable.blocks, keeping image true branches)
  := by
  rw [blocks, relocTable_keeping]

section Keeping

variable (avoided : branches = true → image.options.branches.avoidRelocations = true →
  relocs = true)
include avoided

/-- The branches are computed around the base relocations if these are to be avoided, whether
or not the table of these is there already. -/
theorem branchLocations_keeping :
  (keeping image relocs branches).branchLocations
    = (image.branchLocations,
      keeping image (relocs || image.options.branches.avoidRelocations) true)
  := by
  cases branches with
  | true =>
    have same : (relocs || image.options.branches.avoidRelocations) = relocs := by
      cases relocs with
      | true => rfl
      | false => exact Bool.eq_false_iff.mpr fun avoid => Bool.false_ne_true (avoided rfl avoid)
    rw [same]
    rfl
  | false =>
    rw [branchLocations, relocTable_keeping]
    by_cases avoid : image.options.branches.avoidRelocations = true
    · have around : image.branchLocations = image.branchesAround image.relocTable.locations := by
        rw [Image.branchLocations, Image.avoidedLocations, if_pos avoid]
      simp [keeping, around, avoid]
    · have around : image.branchLocations = image.branchesAround [] := by
        rw [Image.branchLocations, Image.avoidedLocations, if_neg avoid]
      simp [keeping, around, avoid]

theorem locations_keeping (kind : ReferenceKind) :
  (keeping image relocs branches).locations kind
    = (image.locations kind,
      keeping image
        (relocs || (Call.locations kind).asksRelocs image.options.branches.avoidRelocations)
        (branches || (Call.locations kind).asksBranches))
  := by
  cases kind with
  | reloc =>
    have asked (avoid : Bool) : (Call.locations .reloc).asksRelocs avoid = true := rfl
    have other : (Call.locations .reloc).asksBranches = false := rfl
    rw [locations, relocTable_keeping, asked, other, Bool.or_true, Bool.or_false]
    rfl
  | rel32 =>
    have around (avoid : Bool) : (Call.locations .rel32).asksRelocs avoid = avoid := rfl
    have asked : (Call.locations .rel32).asksBranches = true := rfl
    rw [locations, branchLocations_keeping avoided, around, asked, Bool.or_true]
    rfl

theorem references_keeping (kind : ReferenceKind) (low high : Nat) :
  (keeping image relocs branches).references kind low high
    = (image.references kind low high,
      keeping image
        (relocs
          || (Call.references kind low high).asksRelocs image.options.branches.avoidRelocations)
        (branches || (Call.references kind low high).asksBranches))
  := by
  rw [references, locations_keeping avoided]
  cases kind <;> rfl

/-- What a call answers does not depend on the tables that are there, unless it describes the
session. -/
theorem reply_keeping {call : Call} (other : call ≠ .describe) :
  ((keeping image relocs branches).answer call).1 = ((start image).answer call).1
  := by
  have none : false = true → image.options.branches.avoidRelocations = true →
      false = true := by
    intro h
    cases h
  rw [start_eq_keeping]
  cases call with
  | references kind low high =>
    rw [answer, answer, references_keeping avoided, references_keeping none]
    rfl
  | locations kind =>
    rw [answer, answer, locations_keeping avoided, locations_keeping none]
    rfl
  | blocks =>
    rw [answer, answer, blocks_keeping, blocks_keeping]
    rfl
  | describe => contradiction
  | _ => rfl

/-- After a call the tables are there that were there before or that it asked for. -/
theorem session_keeping (call : Call) :
  ((keeping image relocs branches).answer call).2
    = keeping image (relocs || call.asksRelocs image.options.branches.avoidRelocations)
      (branches || call.asksBranches)
  := by
  cases call with
  | references kind low high =>
    rw [answer, references_keeping avoided]
    rfl
  | locations kind =>
    rw [answer, locations_keeping avoided]
    rfl
  | blocks =>
    simp only [answer, blocks_keeping, Call.asksRelocs, Call.asksBranches, Bool.or_true,
      Bool.or_false]
    rfl
  | _ => simp only [answer, Call.asksRelocs, Call.asksBranches, Bool.or_false]

/-- After a list of calls the tables are there that were there before or that one of the calls
asked for. -/
theorem foldl_keeping (calls : List Call) :
  calls.foldl (fun s call => (s.answer call).2) (keeping image relocs branches)
    = keeping image
      (relocs || calls.any (·.asksRelocs image.options.branches.avoidRelocations))
      (branches || calls.any (·.asksBranches))
  := by
  induction calls generalizing relocs branches with
  | nil => rw [List.foldl_nil, List.any_nil, List.any_nil, Bool.or_false, Bool.or_false]
  | cons call calls ih =>
    rw [List.foldl_cons, session_keeping avoided, ih, List.any_cons, List.any_cons,
      Bool.or_assoc, Bool.or_assoc]
    intro asked avoid
    rw [Bool.or_eq_true] at asked ⊢
    rcases asked with before | now
    · left
      apply avoided before avoid
    · right
      rw [avoid]
      apply Call.asksRelocs_of_asksBranches now

end Keeping

/-- The tables that a session keeps after a list of calls are those that the calls asked for. -/
theorem reached_eq (image : Image) (calls : List Call) :
  reached image calls
    = keeping image (calls.any (·.asksRelocs image.options.branches.avoidRelocations))
      (calls.any (·.asksBranches))
  := by
  rw [reached, start_eq_keeping, foldl_keeping, Bool.false_or, Bool.false_or]
  intro h
  cases h

end Session

/-! ### States -/

namespace Image

/-- The headers of a file name a base relocation table. -/
def NamesRelocs (data : Bytes) (directory : DataDirectory) : Prop :=
  ∃ dos nt, DosHeader.read data = .ok dos ∧ NtHeaders.read data dos.ntOffset = .ok nt
    ∧ nt.directories[DataDirectory.baseRelocationIndex]? = some directory
    ∧ directory.isPresent = true

/-- The base relocation table of a file is damaged: the headers name one, and it has no file
offset, does not lie inside the image, or is not the encoding of blocks from its first to its
last byte. -/
def RelocsDamaged (data : Bytes) (image : Image) : Prop :=
  ∃ directory, NamesRelocs data directory
    ∧ (image.loadMap.rvaToOffset? directory.rva = none
      ∨ ∃ offset, image.loadMap.rvaToOffset? directory.rva = some offset
        ∧ (image.size < offset + directory.size
          ∨ ¬ ∃ blocks, (∀ b ∈ blocks, b.Valid)
            ∧ RelocBlock.encodeAll blocks
              = (image.bytes.toList.drop offset).take directory.size))

variable {width : Width} {options : Options} {data : Bytes} {image : Image}

/-- A parsed image has the base relocation table that the headers of the file name. -/
theorem relocationDirectory_of_parse (h : parse width options data = .ok image)
    {directory : DataDirectory} :
  NamesRelocs data directory ↔ image.relocationDirectory = some directory
  := by
  obtain ⟨-, dos, nt, _, _, _, hdos, hnt, -, -, -, -, rfl⟩ := parse_eq_ok_iff.mp h
  dsimp only
  rw [NtHeaders.directory?, Option.filter_eq_some_iff]
  constructor
  · rintro ⟨dos', nt', hdos', hnt', named⟩
    cases hdos.symm.trans hdos'
    cases hnt.symm.trans hnt'
    apply named
  · intro named
    use dos, nt, hdos, hnt, named.1, named.2

/-- The base relocations of a parsed image are complete unless the table is damaged. -/
theorem complete_relocTable_iff (h : parse width options data = .ok image) :
  image.relocTable.complete = false ↔ RelocsDamaged data image
  := by
  simp only [relocTable, relocWalk, RelocsDamaged, relocationDirectory_of_parse h]
  cases image.relocationDirectory with
  | none => simp
  | some directory =>
    simp only [Option.some.injEq, exists_eq_left']
    cases image.loadMap.rvaToOffset? directory.rva with
    | none => simp
    | some offset =>
      simp only [reduceCtorEq, Option.some.injEq, exists_eq_left', false_or]
      by_cases fits : offset + directory.size ≤ image.size
      · rw [RelocWalk.ofRegion_of_fits fits, ← Bool.not_eq_true, RelocWalk.complete_ofBytes_iff,
          or_iff_right (Nat.not_lt.mpr fits)]
      · rw [RelocWalk.ofRegion_of_not_fits fits]
        simp [Nat.lt_of_not_le fits]

end Image

namespace Session

variable {image : Image} {relocs branches : Bool}

theorem state_reloc_keeping (image : Image) (relocs branches : Bool) :
  ((keeping image relocs branches).state .reloc = .notParsed ↔ ¬ relocs = true)
    ∧ ((keeping image relocs branches).state .reloc = .parsedPartial
      ↔ relocs = true ∧ image.relocTable.complete = false)
    ∧ ((keeping image relocs branches).state .reloc = .parsed
      ↔ relocs = true ∧ ¬ image.relocTable.complete = false)
  := by
  have state : (keeping image relocs branches).state .reloc
      = if relocs then
          if image.relocTable.complete then .parsed else .parsedPartial
        else .notParsed := by
    cases relocs <;> rfl
  rw [state]
  cases relocs <;> cases image.relocTable.complete <;> decide

theorem state_rel32_keeping (image : Image) (relocs branches : Bool) :
  ((keeping image relocs branches).state .rel32 = .notParsed ↔ ¬ branches = true)
    ∧ ((keeping image relocs branches).state .rel32 = .parsed ↔ branches = true)
  := by
  have state : (keeping image relocs branches).state .rel32
      = if branches then .parsed else .notParsed := by
    cases branches <;> rfl
  rw [state]
  cases branches <;> decide

/-- What a session answers after a list of calls of which nothing is assumed.

* A call is answered as by a session of which nothing has been asked before, unless it describes
  the session.
* The base relocations are not parsed exactly if no call has asked for them, parsed in part
  exactly if one has and the table is damaged, and parsed exactly if one has and it is not.
* The branches are not parsed exactly if no call has asked for them, and parsed exactly if one
  has.
* A call that asks for neither leaves the session as it is. -/
theorem answer_reached {width : Width} {options : Options} {data : Bytes}
    (h : Image.parse width options data = .ok image) (calls : List Call) :
  (∀ call, call ≠ .describe →
      ((reached image calls).answer call).1 = ((start image).answer call).1)
    ∧ ((reached image calls).state .reloc = .notParsed
      ↔ ¬ ∃ call ∈ calls, call.asksRelocs options.branches.avoidRelocations = true)
    ∧ ((reached image calls).state .reloc = .parsedPartial
      ↔ (∃ call ∈ calls, call.asksRelocs options.branches.avoidRelocations = true)
        ∧ Image.RelocsDamaged data image)
    ∧ ((reached image calls).state .reloc = .parsed
      ↔ (∃ call ∈ calls, call.asksRelocs options.branches.avoidRelocations = true)
        ∧ ¬ Image.RelocsDamaged data image)
    ∧ ((reached image calls).state .rel32 = .notParsed
      ↔ ¬ ∃ call ∈ calls, call.asksBranches = true)
    ∧ ((reached image calls).state .rel32 = .parsed
      ↔ ∃ call ∈ calls, call.asksBranches = true)
    ∧ ∀ call, call.asksRelocs options.branches.avoidRelocations = false →
      call.asksBranches = false →
      ((reached image calls).answer call).2 = reached image calls
  := by
  have damaged := Image.complete_relocTable_iff h
  obtain rfl := Image.options_of_parse h
  have avoided : calls.any (·.asksBranches) = true →
      image.options.branches.avoidRelocations = true →
      calls.any (·.asksRelocs image.options.branches.avoidRelocations) = true := by
    intro asked avoid
    rw [avoid]
    obtain ⟨call, hcall, asks⟩ := List.any_eq_true.mp asked
    apply List.any_eq_true.mpr
    use call, hcall, Call.asksRelocs_of_asksBranches asks
  rw [reached_eq, ← damaged, ← List.any_eq_true, ← List.any_eq_true]
  obtain ⟨relocsNotParsed, relocsPartial, relocsParsed⟩ := state_reloc_keeping image
    (calls.any (·.asksRelocs image.options.branches.avoidRelocations))
    (calls.any (·.asksBranches))
  obtain ⟨branchesNotParsed, branchesParsed⟩ := state_rel32_keeping image
    (calls.any (·.asksRelocs image.options.branches.avoidRelocations))
    (calls.any (·.asksBranches))
  use fun call other => reply_keeping avoided other, relocsNotParsed, relocsPartial,
    relocsParsed, branchesNotParsed, branchesParsed
  intro call relocs branches
  rw [session_keeping avoided, relocs, branches, Bool.or_false, Bool.or_false]

/-- In the sample a description asks for no table.  The locations of branches ask for both, and
the locations of base relocations are those of a session of which nothing has been asked. -/
theorem answer_reached_sample :
  (reached .sample [.describe]).state .reloc = .notParsed
    ∧ (reached .sample [.describe, .locations .rel32]).state .reloc = .parsed
    ∧ (reached .sample [.describe, .locations .rel32]).state .rel32 = .parsed
    ∧ ((reached .sample [.describe, .locations .rel32]).answer (.locations .reloc)).1
      = ((start .sample).answer (.locations .reloc)).1
  := by
  obtain ⟨-, notParsed, -⟩ := answer_reached Image.parse_sampleBytes [.describe]
  obtain ⟨same, -, -, relocsParsed, -, branchesParsed, -⟩ :=
    answer_reached Image.parse_sampleBytes [.describe, .locations .rel32]
  have complete : Image.sample.relocTable.complete = true := by decide +kernel
  and_intros
  · apply notParsed.mpr
    decide
  · apply relocsParsed.mpr
    rw [← Image.complete_relocTable_iff Image.parse_sampleBytes, complete]
    decide
  · apply branchesParsed.mpr
    decide
  · apply same
    decide

end Session

end ImageRefs
