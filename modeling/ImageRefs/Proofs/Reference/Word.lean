import ImageRefs.Reference.Read
import ImageRefs.Reference.Write
import ImageRefs.Proofs.Address.Inverse
import ImageRefs.Proofs.Bytes.Field

/-!
# The word of a reference

Reading a reference decodes the word in its field (`read?_eq_bind`).  Decoding a word and
encoding a reference as a word undo each other: the word of a decoded reference is the word
that it was decoded from (`word?_of_ofWord?`), and the word of a reference that can be
encoded decodes to the reference (`ofWord?_of_word?`).
-/

namespace ImageRefs.AddressSpace

variable {a : AddressSpace} {kind : ReferenceKind} {data : Bytes}

/-- The field of a reference of a kind at a location. -/
def fieldAt (a : AddressSpace) (kind : ReferenceKind) (location : Nat) : Region :=
  ⟨location, kind.fieldWidth a.width⟩

/-- The reference of a kind that a word in the field at a location denotes. -/
def ofWord? (a : AddressSpace) (kind : ReferenceKind) (location word : Nat) :
    Option Reference :=
  match kind with
  | .reloc => (a.validRva? word).map fun _ => ⟨location, word⟩
  | .rel32 =>
    ((a.relativeTarget? location (signed32 word)).filter a.loadMap.validRva).map fun rva =>
      ⟨location, a.rvaToAddress rva⟩

/-- A reference can be encoded in its field: its target has a valid RVA, and if the field is
relative and loaded, the distance to the target is a signed number of 32 bits. -/
def Encodable (a : AddressSpace) (kind : ReferenceKind) (r : Reference) : Prop :=
  ∃ targetRva ∈ a.addressToRva? r.target, a.loadMap.validRva targetRva = true
    ∧ (kind = .rel32 → ∀ fieldRva ∈ a.loadMap.offsetToRva? r.location,
      -(0x80000000 : Int) ≤ targetRva - (fieldRva + displacementWidth)
        ∧ (targetRva : Int) - (fieldRva + displacementWidth) < 0x80000000)

instance (a : AddressSpace) (kind : ReferenceKind) (r : Reference) :
    Decidable (a.Encodable kind r) :=
  Option.decidableExistsMem _

/-- A reference can be written into a buffer of `size` bytes and read back from it: it can be
encoded, and its field lies inside the buffer and is loaded if it is relative. -/
structure Storable (a : AddressSpace) (size : Nat) (kind : ReferenceKind) (r : Reference) :
    Prop where
  encodable : a.Encodable kind r
  loaded : kind = .rel32 → (a.loadMap.offsetToRva? r.location).isSome
  fits : r.location + kind.fieldWidth a.width ≤ size

/-- A relative field points to an RVA if it is loaded and its word is the distance to it. -/
theorem storedTarget?_eq_some_iff {location rva : Nat} :
  a.storedTarget? data location = some rva
    ↔ rva < space32 ∧ ∃ fieldRva word, a.loadMap.offsetToRva? location = some fieldRva
      ∧ data.read? displacementWidth location = some word
      ∧ (rva : Int) = fieldRva + displacementWidth + signed32 word
  := by
  rw [storedTarget?, Option.bind_eq_some_iff]
  constructor
  · rintro ⟨word, stored, target⟩
    obtain ⟨bound, fieldRva, loaded, target⟩ := relativeTarget?_eq_some_iff.mp target
    exact ⟨bound, fieldRva, word, loaded, stored, target⟩
  · rintro ⟨bound, fieldRva, word, loaded, stored, target⟩
    use word, stored
    apply relativeTarget?_eq_some_iff.mpr
    exact ⟨bound, fieldRva, loaded, target⟩

/-- Reading a reference is reading the word in its field and decoding it. -/
theorem read?_eq_bind (a : AddressSpace) (kind : ReferenceKind) (data : Bytes)
    (location : Nat) :
  a.read? kind data location
    = (data.read? (kind.fieldWidth a.width) location).bind (a.ofWord? kind location)
  := by
  cases kind with
  | reloc => rfl
  | rel32 =>
    simp only [read?, readRel32?, storedTarget?, ReferenceKind.fieldWidth]
    cases data.read? displacementWidth location with
    | none => rfl
    | some word => rw [Option.bind_some, Option.bind_some, ofWord?]

/-- The word of a reference fits in its field. -/
theorem word_lt {r : Reference} {word : Nat} (h : a.word? kind r = some word) :
  word < byteCapacity (kind.fieldWidth a.width)
  := by
  cases kind with
  | reloc =>
    cases h
    rw [ReferenceKind.fieldWidth, Width.byteCapacity_bytes]
    apply Width.truncate_lt
  | rel32 =>
    simp only [word?, Option.bind_eq_bind, Option.bind_eq_some_iff, Option.some.injEq] at h
    obtain ⟨fieldRva, -, targetRva, -, rfl⟩ := h
    apply displacementWord_lt

/-- The word of a decoded reference is the word that it was decoded from. -/
theorem word?_of_ofWord? (based : a.Based) {location word : Nat} {r : Reference}
    (small : word < byteCapacity (kind.fieldWidth a.width))
    (h : a.ofWord? kind location word = some r) :
  r.location = location ∧ a.word? kind r = some word
  := by
  cases kind with
  | reloc =>
    obtain ⟨_, -, rfl⟩ := Option.map_eq_some_iff.mp h
    rw [ReferenceKind.fieldWidth, Width.byteCapacity_bytes] at small
    use rfl
    rw [word?, Width.truncate, Nat.mod_eq_of_lt small]
  | rel32 =>
    obtain ⟨rva, target, rfl⟩ := Option.map_eq_some_iff.mp h
    obtain ⟨target, -⟩ := Option.filter_eq_some_iff.mp target
    obtain ⟨bound, fieldRva, loaded, target⟩ := relativeTarget?_eq_some_iff.mp target
    use rfl
    simp only [word?, Option.bind_eq_bind, Option.bind_eq_some_iff, Option.some.injEq]
    use fieldRva, loaded, rva, addressToRva?_rvaToAddress based bound
    apply displacementWord_of_target small target

/-- The word of a reference that can be encoded decodes to the reference. -/
theorem ofWord?_of_word? (based : a.Based) {r : Reference} {word : Nat}
    (encodable : a.Encodable kind r) (h : a.word? kind r = some word) :
  a.ofWord? kind r.location word = some r
  := by
  obtain ⟨targetRva, translated, valid, near⟩ := encodable
  obtain ⟨fits, bound, -⟩ := addressToRva?_eq_some_iff.mp translated
  cases kind with
  | reloc =>
    cases h
    rw [ofWord?, Width.truncate, Nat.mod_eq_of_lt fits,
      validRva?_eq_some_iff.mpr ⟨translated, valid⟩, Option.map_some]
  | rel32 =>
    simp only [word?, Option.bind_eq_bind, Option.bind_eq_some_iff, Option.some.injEq] at h
    obtain ⟨fieldRva, loaded, rva, found, rfl⟩ := h
    obtain rfl := Option.some.inj (translated.symm.trans found)
    obtain ⟨low, high⟩ := near rfl fieldRva loaded
    have target : a.relativeTarget? r.location
        (signed32 (displacementWord fieldRva targetRva)) = some targetRva := by
      apply relativeTarget?_eq_some_iff.mpr
      use bound, fieldRva, loaded
      rw [signed32_displacementWord low high]
      omega
    rw [ofWord?, Option.map_eq_some_iff]
    use targetRva, Option.filter_eq_some_iff.mpr ⟨target, valid⟩
    rw [rvaToAddress_of_addressToRva? based translated]

/-- A reference that can be stored has a word. -/
theorem Storable.exists_word? {size : Nat} {r : Reference}
    (storable : a.Storable size kind r) :
  ∃ word, a.word? kind r = some word
  := by
  obtain ⟨targetRva, translated, -⟩ := storable.encodable
  cases kind with
  | reloc => exact ⟨_, rfl⟩
  | rel32 =>
    obtain ⟨fieldRva, loaded⟩ := Option.isSome_iff_exists.mp (storable.loaded rfl)
    use displacementWord fieldRva targetRva
    rw [word?, loaded, Option.mem_def.mp translated]
    rfl

/-! ### Reading -/

/-- A reference that is read has its word stored in its field. -/
theorem stored_of_read? (based : a.Based) {location : Nat} {r : Reference}
    (h : a.read? kind data location = some r) :
  r.location = location ∧ ∃ word, a.word? kind r = some word
    ∧ data.read? (kind.fieldWidth a.width) location = some word
  := by
  rw [read?_eq_bind] at h
  obtain ⟨word, stored, decoded⟩ := Option.bind_eq_some_iff.mp h
  obtain ⟨here, encoded⟩ := word?_of_ofWord? based (Bytes.lt_of_read? stored) decoded
  exact ⟨here, word, encoded, stored⟩

/-- A relative field that holds a reference is loaded. -/
theorem loaded_of_read? {location : Nat} {r : Reference}
    (h : a.read? .rel32 data location = some r) :
  (a.loadMap.offsetToRva? location).isSome
  := by
  rw [read?_eq_bind] at h
  obtain ⟨word, -, decoded⟩ := Option.bind_eq_some_iff.mp h
  obtain ⟨rva, target, -⟩ := Option.map_eq_some_iff.mp decoded
  obtain ⟨target, -⟩ := Option.filter_eq_some_iff.mp target
  obtain ⟨-, fieldRva, loaded, -⟩ := relativeTarget?_eq_some_iff.mp target
  rw [loaded, Option.isSome_some]

end ImageRefs.AddressSpace
