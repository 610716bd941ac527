import ImageRefs.Proofs.Reference.WriteEach

/-!
# The effect of writing

A reference is written as a whole or not at all, whatever its location and its target are.

* A write is skipped exactly if the field does not fit in the buffer or, for a relative field,
  if the field is not loaded or the target has no RVA (`Skipped`).
* A write that is not skipped fills the field with the new word, and no write changes a byte
  outside of its field (`effect_write`).
* After a sequence of writes the buffer is as if the skipped references had not been there
  (`writeAll_filter_not_skipped`), and the bytes outside of the fields of the others are as
  before (`getElem?_writeAll_of_not_holds`).

The locations may come in any order and the fields may overlap: what is written for a reference
does not depend on the buffer or on the references before it.
-/

namespace ImageRefs.AddressSpace

variable {a : AddressSpace} {kind : ReferenceKind} {data : Bytes} {r : Reference}

/-- The write of a reference into a buffer of `size` bytes is skipped. -/
def Skipped (a : AddressSpace) (size : Nat) (kind : ReferenceKind) (r : Reference) : Prop :=
  size < r.location + kind.fieldWidth a.width
    ∨ kind = .rel32 ∧ (a.loadMap.offsetToRva? r.location = none
      ∨ a.width.modulus ≤ r.target ∨ space32 ≤ a.distance r.target)

instance (a : AddressSpace) (size : Nat) (kind : ReferenceKind) (r : Reference) :
    Decidable (a.Skipped size kind r) :=
  inferInstanceAs (Decidable (_ ∨ _ ∧ (_ ∨ _ ∨ _)))

/-- A word encodes a reference: it consists of the low bits of the target or, if the field is
relative, of those of the distance from the end of the loaded field to the target. -/
def Encodes (a : AddressSpace) (kind : ReferenceKind) (r : Reference) (word : Nat) : Prop :=
  match kind with
  | .reloc => word = r.target % 2 ^ (8 * a.width.bytes)
  | .rel32 => ∃ fieldRva ∈ a.loadMap.offsetToRva? r.location,
    (word : Int) = (a.distance r.target - fieldRva - displacementWidth) % 2 ^ 32

/-- What writing a reference does to a buffer. -/
structure Effect (a : AddressSpace) (kind : ReferenceKind) (r : Reference)
    (before after : Bytes) : Prop where
  size : after.size = before.size
  skipped : a.Skipped before.size kind r → after = before
  stored : ¬ a.Skipped before.size kind r → ∃ word, a.Encodes kind r word
    ∧ after.read? (kind.fieldWidth a.width) r.location = some word
  kept : ∀ i, ¬ (a.fieldAt kind r.location).Holds i → after[i]? = before[i]?

/-! ### One write -/

/-- The word of a reference encodes it. -/
theorem encodes_of_word? (based : a.Based) {word : Nat} (h : a.word? kind r = some word) :
  a.Encodes kind r word
  := by
  cases kind with
  | reloc =>
    cases h
    rw [Encodes, Width.truncate, Width.modulus_eq_two_pow]
  | rel32 =>
    simp only [word?, Option.bind_eq_bind, Option.bind_eq_some_iff, Option.some.injEq] at h
    obtain ⟨fieldRva, loaded, targetRva, translated, rfl⟩ := h
    obtain ⟨-, -, target⟩ := (addressToRva?_eq_some_iff_distance based).mp translated
    use fieldRva, loaded
    rw [target, natCast_displacementWord, Int.sub_sub]
    rfl

/-- A write is skipped exactly if the field does not fit or there is no word for it. -/
theorem skipped_iff (based : a.Based) {size : Nat} :
  a.Skipped size kind r
    ↔ size < r.location + kind.fieldWidth a.width ∨ a.word? kind r = none
  := by
  rw [Skipped]
  apply or_congr_right
  cases kind with
  | reloc => simp only [word?, reduceCtorEq, false_and]
  | rel32 =>
    rw [← addressToRva?_eq_none_iff based, word?]
    cases a.loadMap.offsetToRva? r.location with
    | none => simp
    | some fieldRva => cases a.addressToRva? r.target <;> simp

/-- A write that is skipped leaves the buffer as it is. -/
theorem write_of_skipped (based : a.Based) (h : a.Skipped data.size kind r) :
  a.write kind data r = data
  := by
  rw [write]
  split
  · rfl
  · next word encoded =>
    rcases (skipped_iff based).mp h with outside | missing
    · apply Bytes.write_of_not_fits
      omega
    · cases missing.symm.trans encoded

/-- A reference is written as a whole into its field, or not at all. -/
theorem effect_write (based : a.Based) (kind : ReferenceKind) (data : Bytes) (r : Reference) :
  a.Effect kind r data (a.write kind data r)
  where
  size := size_write a kind data r
  skipped := write_of_skipped based
  stored := by
    intro h
    rw [skipped_iff based, not_or, Nat.not_lt, ← Ne, Option.ne_none_iff_exists'] at h
    obtain ⟨fits, word, encoded⟩ := h
    use word, encodes_of_word? based encoded
    apply stored_write_self encoded fits
  kept := by
    intro i outside
    rw [write]
    split
    · rfl
    · rw [Bytes.getElem?_write, if_neg]
      exact mt And.right outside

/-! ### A sequence of writes -/

theorem writeAll_append (a : AddressSpace) (kind : ReferenceKind) (data : Bytes)
    (references references' : List Reference) :
  a.writeAll kind data (references ++ references')
    = a.writeAll kind (a.writeAll kind data references) references'
  := List.foldl_append

theorem writeAll_cons (a : AddressSpace) (kind : ReferenceKind) (data : Bytes) (r : Reference)
    (references : List Reference) :
  a.writeAll kind data (r :: references) = a.writeAll kind (a.write kind data r) references
  := rfl

/-- A write that is skipped does not affect the others. -/
theorem writeAll_filter_not_skipped (based : a.Based) (kind : ReferenceKind) (data : Bytes)
    (references : List Reference) :
  a.writeAll kind data (references.filter fun r => ¬ a.Skipped data.size kind r)
    = a.writeAll kind data references
  := by
  induction references generalizing data with
  | nil => rfl
  | cons r references ih =>
    by_cases h : a.Skipped data.size kind r
    · rw [List.filter_cons_of_neg (by simp [h]), ih, writeAll_cons, write_of_skipped based h]
    · -- The write keeps the size, so that the same references are skipped after it.
      have rest := ih (a.write kind data r)
      rw [size_write] at rest
      rw [List.filter_cons_of_pos (by simp [h]), writeAll_cons, writeAll_cons]
      apply rest

/-- A byte outside of all fields that are written is as before. -/
theorem getElem?_writeAll_of_not_holds (based : a.Based) {references : List Reference} {i : Nat}
    (outside : ∀ r ∈ references, ¬ a.Skipped data.size kind r →
      ¬ (a.fieldAt kind r.location).Holds i) :
  (a.writeAll kind data references)[i]? = data[i]?
  := by
  rw [← writeAll_filter_not_skipped based, writeAll_eq_writeEach]
  have apart : ∀ entry ∈ (references.filter fun r => ¬ a.Skipped data.size kind r).map
      (Prod.mk kind), (a.field entry).Apart ⟨i, 1⟩ := by
    intro entry h
    obtain ⟨r, hr, rfl⟩ := List.mem_map.mp h
    obtain ⟨hr, written⟩ := List.mem_filter.mp hr
    have := outside r hr (of_decide_eq_true written)
    simp only [Region.Holds] at this
    simp only [Region.Apart, field]
    omega
  apply getElem?_writeEach_of_apart apart (Nat.le_refl i) (Nat.lt_succ_self i)

/-- The writer of a kind, whatever references it is given:

* each of them has its effect on the buffer that those before it leave behind;
* the size of the buffer does not change;
* those that are skipped do not affect the others;
* the bytes outside of the fields that are written are as before. -/
theorem effect_writeAll (based : a.Based) (kind : ReferenceKind) (data : Bytes)
    (references : List Reference) :
  (∀ n (h : n < references.length), a.Effect kind references[n]
      (a.writeAll kind data (references.take n)) (a.writeAll kind data (references.take (n + 1))))
    ∧ (a.writeAll kind data references).size = data.size
    ∧ a.writeAll kind data references
      = a.writeAll kind data (references.filter fun r => ¬ a.Skipped data.size kind r)
    ∧ ∀ i, (∀ r ∈ references, ¬ a.Skipped data.size kind r →
        ¬ (a.fieldAt kind r.location).Holds i) →
      (a.writeAll kind data references)[i]? = data[i]?
  := by
  and_intros
  · intro n h
    rw [List.take_succ_eq_append_getElem h, writeAll_append]
    apply effect_write based
  · rw [writeAll_eq_writeEach, size_writeEach]
  · rw [writeAll_filter_not_skipped based]
  · intro i outside
    apply getElem?_writeAll_of_not_holds based outside

/-- References out of order.  The field of the second one does not fit in ten bytes, that of
the third one is not loaded, the target of the fourth one lies too far above the base, and the
field of the last one overlaps that of the first. -/
def misused : List Reference := [⟨4, 0x10⟩, ⟨7, 0x10⟩, ⟨6, 0x10⟩, ⟨2, 0x100000000⟩, ⟨2, 0⟩]

/-- Only the first of the misused references and the last one are written, and both as a
whole. -/
theorem effect_writeAll_misused :
  topSpace.Based
    ∧ topSpace.writeAll .rel32 (Array.replicate 10 0xAA) misused
      = #[0xAA, 0xAA, 0xFA, 0xFF, 0xFF, 0xFF, 0, 0, 0xAA, 0xAA]
    ∧ topSpace.writeAll .rel32 (Array.replicate 10 0xAA) [⟨4, 0x10⟩, ⟨2, 0⟩]
      = #[0xAA, 0xAA, 0xFA, 0xFF, 0xFF, 0xFF, 0, 0, 0xAA, 0xAA]
    ∧ topSpace.Effect .rel32 ⟨2, 0⟩
      #[0xAA, 0xAA, 0xAA, 0xAA, 8, 0, 0, 0, 0xAA, 0xAA]
      #[0xAA, 0xAA, 0xFA, 0xFF, 0xFF, 0xFF, 0, 0, 0xAA, 0xAA]
  := by
  have based : topSpace.Based := based_ofBase _ _ _
  obtain ⟨each, -, filtered, -⟩ :=
    effect_writeAll based .rel32 (Array.replicate 10 0xAA) misused
  have written : misused.filter (fun r => ¬ topSpace.Skipped 10 .rel32 r)
      = [⟨4, 0x10⟩, ⟨2, 0⟩] := by decide +kernel
  rw [Array.size_replicate, written] at filtered
  have last := each 4 (by decide)
  have both : topSpace.writeAll .rel32 (Array.replicate 10 0xAA) [⟨4, 0x10⟩, ⟨2, 0⟩]
      = #[0xAA, 0xAA, 0xFA, 0xFF, 0xFF, 0xFF, 0, 0, 0xAA, 0xAA] := by decide +kernel
  use based, filtered.trans both, both
  have before : topSpace.writeAll .rel32 (Array.replicate 10 0xAA) (misused.take 4)
      = #[0xAA, 0xAA, 0xAA, 0xAA, 8, 0, 0, 0, 0xAA, 0xAA] := by decide +kernel
  rw [before, show misused.take (4 + 1) = misused by rfl, filtered, both] at last
  apply last

end ImageRefs.AddressSpace
