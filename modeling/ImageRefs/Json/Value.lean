import ImageRefs.Text.Utf16

/-!
# JSON values

A value keeps what its text says: numbers keep their parts as they are written, strings
are lists of UTF-16 code units, whether or not their surrogates come in pairs, and the
members of an object keep their order and may repeat a key.
-/

namespace ImageRefs.Json

/-- A number as it is written. -/
structure Number where
  negative : Bool
  /-- The digits before the point. -/
  whole : Nat
  /-- The digits behind the point, if there is one. -/
  fraction : Option (List Char)
  /-- The sign and the digits of the exponent, if there is one. -/
  exponent : Option (Bool × List Char)
  deriving Repr, DecidableEq

/-- The number that is written with nothing but digits. -/
def Number.ofNat (n : Nat) : Number :=
  ⟨false, n, none, none⟩

/-- The natural number that is written with nothing but digits. -/
def Number.toNat? (n : Number) : Option Nat :=
  if n.negative || n.fraction.isSome || n.exponent.isSome then none else some n.whole

@[simp]
theorem Number.toNat?_ofNat (n : Nat) :
  (Number.ofNat n).toNat? = some n
  := rfl

/-- A JSON value. -/
inductive Value where
  | null
  | bool (value : Bool)
  | number (value : Number)
  | string (units : List Nat)
  | array (items : List Value)
  | object (members : List (List Nat × Value))
  deriving Repr

namespace Value

/-! ### Equality -/

mutual

/-- Whether two values are the same. -/
def same : Value → Value → Bool
  | .null, .null => true
  | .bool b, .bool c => b == c
  | .number m, .number n => m == n
  | .string units, .string units' => units == units'
  | .array items, .array items' => sameItems items items'
  | .object members, .object members' => sameMembers members members'
  | _, _ => false

/-- Whether the elements of two arrays are the same. -/
def sameItems : List Value → List Value → Bool
  | [], [] => true
  | v :: items, w :: items' => same v w && sameItems items items'
  | _, _ => false

/-- Whether the members of two objects are the same, in the same order. -/
def sameMembers : List (List Nat × Value) → List (List Nat × Value) → Bool
  | [], [] => true
  | (key, v) :: members, (key', w) :: members' =>
    key == key' && same v w && sameMembers members members'
  | _, _ => false

end

mutual

theorem same_iff (v w : Value) :
  same v w = true ↔ v = w
  := by
  cases v with
  | array items => cases w <;> simp [same, sameItems_iff items]
  | object members => cases w <;> simp [same, sameMembers_iff members]
  | _ => cases w <;> simp [same]

theorem sameItems_iff (items items' : List Value) :
  sameItems items items' = true ↔ items = items'
  := by
  cases items with
  | nil => cases items' <;> simp [sameItems]
  | cons v items =>
    cases items' with
    | nil => simp [sameItems]
    | cons w items' => simp [sameItems, same_iff v, sameItems_iff items]

theorem sameMembers_iff (members members' : List (List Nat × Value)) :
  sameMembers members members' = true ↔ members = members'
  := by
  cases members with
  | nil => cases members' <;> simp [sameMembers]
  | cons m members =>
    obtain ⟨key, v⟩ := m
    cases members' with
    | nil => simp [sameMembers]
    | cons m' members' =>
      obtain ⟨key', w⟩ := m'
      simp [sameMembers, same_iff v, sameMembers_iff members]

end

instance : DecidableEq Value :=
  fun v w => decidable_of_iff _ (same_iff v w)

/-! ### Reading and making values -/

/-- The number that is written with nothing but digits, as a value. -/
def nat (n : Nat) : Value :=
  .number (Number.ofNat n)

/-- A text, as a value. -/
def text (s : String) : Value :=
  .string (Utf16.encode s.toList)

/-- An object, from its keys and values in order. -/
def record (members : List (String × Value)) : Value :=
  .object (members.map fun m => (Utf16.encode m.1.toList, m.2))

/-- The natural number below `bound` that the value is. -/
def nat? (bound : Nat) : Value → Option Nat
  | .number n => n.toNat?.filter (· < bound)
  | _ => none

/-- The truth value that the value is. -/
def bool? : Value → Option Bool
  | .bool b => some b
  | _ => none

/-- Whether no two members of a list have the same key. -/
def distinctKeys (members : List (String × Value)) : Bool :=
  decide (members.map Prod.fst).Nodup

/-- The fields of a record with the given names.  A record is written as an object, whose
further members do not count but none of whose named members may repeat, or as an array
of the fields in order, of which the last ones may be missing.  The keys of an object
must be texts. -/
def fields? (names : List String) : Value → Option (List (String × Value))
  | .array items => if items.length ≤ names.length then some (names.zip items) else none
  | .object members => do
    let keyed ← members.mapM fun m => (Utf16.decode? m.1).map fun key =>
      (String.ofList key, m.2)
    let known := keyed.filter fun m => names.contains m.1
    if distinctKeys known then some known else none
  | _ => none

/-- The field of a record with a given name, read by `read`, or the default if there is
no such field. -/
def fieldOr {α : Type} (fields : List (String × Value)) (name : String) (default : α)
    (read : Value → Option α) : Option α :=
  match fields.lookup name with
  | none => some default
  | some value => read value

/-- The field of a record with a given name, read by `read`. -/
def field? {α : Type} (fields : List (String × Value)) (name : String)
    (read : Value → Option α) : Option α :=
  (fields.lookup name).bind read

end Value

end ImageRefs.Json
