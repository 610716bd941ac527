import ImageRefs.Proofs.Json.Lexical

/-!
# Reading values

The texts that `parse?` reads are exactly the JSON texts of the grammar, and it reads the value
that the grammar gives them (`parse?_eq_some_iff`).  Both directions are inductions on the fuel,
for values, for what stands between the brackets of an array, and for what stands between the
braces of an object at once.  The fuel lasts because a value takes at most twice as much of it as
its text has characters.
-/

namespace ImageRefs.Json

/-! ### First characters -/

/-- A number begins with a minus or a digit. -/
def beginsNumber (c : Char) : Bool :=
  c == '-' || c.isDigit

theorem ne_of_beginsNumber {c d : Char} (h : beginsNumber c = true)
    (other : beginsNumber d = false) :
  c ≠ d
  := by
  rintro rfl
  rw [h] at other
  cases other

theorem head_of_isNumber {text : List Char} {n : Number} (h : IsNumber text n) :
  ∃ c rest, text = c :: rest ∧ beginsNumber c = true
  := by
  obtain @⟨whole, fraction, exponent, n, isWholeText, -, -⟩ := h
  cases negative : n.negative with
  | true => exact ⟨'-', _, rfl, rfl⟩
  | false =>
    cases whole with
    | nil => cases isWholeText.nonempty rfl
    | cons c whole =>
      have digit := isWholeText.digits c List.mem_cons_self
      exact ⟨c, _, rfl, by simp [beginsNumber, digit]⟩

/-- A value begins neither with a blank nor with a closing bracket. -/
theorem head_of_isValue {text : List Char} {v : Value} (h : IsValue text v) :
  ∃ c rest, text = c :: rest ∧ isBlank c = false ∧ c ≠ ']'
  := by
  cases h with
  | number isNumber =>
    obtain ⟨c, rest, rfl, begins⟩ := head_of_isNumber isNumber
    use c, rest, rfl
    constructor
    · apply Bool.eq_false_iff.mpr
      intro blank
      have none : ∀ c ∈ [' ', '\t', '\n', '\r'], beginsNumber c = false := by
        simp [beginsNumber]
      rw [none c (isBlank_eq_true_iff.mp blank)] at begins
      cases begins
    · apply ne_of_beginsNumber begins rfl
  | _ => exact ⟨_, _, rfl, rfl, by decide⟩

theorem skipBlanks_of_isValue {text rest : List Char} {v : Value} (h : IsValue text v) :
  skipBlanks (text ++ rest) = text ++ rest
  := by
  obtain ⟨c, text, rfl, blank, -⟩ := head_of_isValue h
  apply skipBlanks_cons blank

theorem skipBlanks_of_isElement {text rest tail : List Char} {v : Value} (h : IsElement text v) :
  skipBlanks (text ++ rest) ≠ ']' :: tail
  := by
  obtain @⟨before, text, behind, v, isBefore, isValue, -⟩ := h
  rw [List.append_assoc, List.append_assoc, skipBlanks_append isBefore,
    skipBlanks_of_isValue isValue]
  obtain ⟨c, text, rfl, -, other⟩ := head_of_isValue isValue
  intro same
  apply other (List.cons.inj same).1

/-- What stands in an array that is not empty does not begin with its closing bracket. -/
theorem skipBlanks_of_isElements {text rest : List Char} {items : List Value}
    (h : IsElements text items) (tail : List Char) :
  skipBlanks (text ++ rest) ≠ ']' :: tail
  := by
  cases h with
  | one element => apply skipBlanks_of_isElement element
  | more element =>
    rw [List.append_assoc]
    apply skipBlanks_of_isElement element

theorem skipBlanks_of_isMember {text rest tail : List Char} {m : List Nat × Value}
    (h : IsMember text m) :
  skipBlanks (text ++ rest) ≠ '}' :: tail
  := by
  obtain @⟨before, key, behind, text, units, v, isBefore, -, -, -⟩ := h
  rw [List.append_assoc, skipBlanks_append isBefore, List.cons_append, skipBlanks_cons rfl]
  intro same
  cases (List.cons.inj same).1

/-- What stands in an object that is not empty does not begin with its closing brace. -/
theorem skipBlanks_of_isMembers {text rest : List Char} {members : List (List Nat × Value)}
    (h : IsMembers text members) (tail : List Char) :
  skipBlanks (text ++ rest) ≠ '}' :: tail
  := by
  cases h with
  | one member => apply skipBlanks_of_isMember member
  | more member =>
    rw [List.append_assoc]
    apply skipBlanks_of_isMember member

/-- A value is read as a number if it begins like one. -/
theorem value?_of_beginsNumber {c : Char} {text tail : List Char} (h : beginsNumber c = true)
    (blanks : skipBlanks text = c :: tail) (fuel : Nat) :
  value? (fuel + 1) text = (number? (c :: tail)).map fun p => (.number p.1, p.2)
  := by
  rw [value?, blanks]
  split
  · next same => cases ne_of_beginsNumber h rfl (List.cons.inj same).1
  · next same => cases ne_of_beginsNumber h rfl (List.cons.inj same).1
  · next same => cases ne_of_beginsNumber h rfl (List.cons.inj same).1
  · next same => cases ne_of_beginsNumber h rfl (List.cons.inj same).1
  · next same => cases ne_of_beginsNumber h rfl (List.cons.inj same).1
  · next same => cases ne_of_beginsNumber h rfl (List.cons.inj same).1
  · rfl

theorem afterWord?_eq_some_iff {word text rest : List Char} :
  afterWord? word text = some rest ↔ text = word ++ rest
  := by
  fun_induction afterWord? word text with
  | case1 text => simp
  | case2 w word text ih => simp [ih]
  | case3 w word c text other => simp [other]
  | case4 w word => simp

theorem skipBlanks_skipBlanks (text : List Char) :
  skipBlanks (skipBlanks text) = skipBlanks text
  := by
  obtain ⟨blanks, isBlanks, parts⟩ := exists_of_skipBlanks (rfl : skipBlanks text = _)
  rw [← skipBlanks_append isBlanks, ← parts]

/-! ### Skipped blanks -/

theorem value?_skipBlanks (fuel : Nat) (text : List Char) :
  value? fuel (skipBlanks text) = value? fuel text
  := by
  cases fuel with
  | zero => rw [value?, value?]
  | succ fuel => rw [value?, value?, skipBlanks_skipBlanks]

theorem items?_skipBlanks (fuel : Nat) (text : List Char) :
  items? fuel (skipBlanks text) = items? fuel text
  := by
  cases fuel with
  | zero => rw [items?, items?]
  | succ fuel => rw [items?, items?, value?_skipBlanks]

theorem members?_skipBlanks (fuel : Nat) (text : List Char) :
  members? fuel (skipBlanks text) = members? fuel text
  := by
  cases fuel with
  | zero => rw [members?, members?]
  | succ fuel => rw [members?, members?, skipBlanks_skipBlanks]

/-- What stands in an array is read behind its opening bracket. -/
theorem value?_array {text inner : List Char} (front : skipBlanks text = '[' :: inner)
    (nonempty : ∀ rest, skipBlanks inner ≠ ']' :: rest) (fuel : Nat) :
  value? (fuel + 1) text = (items? fuel inner).map fun p => (.array p.1, p.2)
  := by
  simp only [value?, front]
  rw [items?_skipBlanks]

/-- What stands in an object is read behind its opening brace. -/
theorem value?_object {text inner : List Char} (front : skipBlanks text = '{' :: inner)
    (nonempty : ∀ rest, skipBlanks inner ≠ '}' :: rest) (fuel : Nat) :
  value? (fuel + 1) text = (members? fuel inner).map fun p => (.object p.1, p.2)
  := by
  simp only [value?, front]
  rw [members?_skipBlanks]

/-! ### What the grammar allows is read -/

/-- With some fuel, the readers read what the grammar allows if it is not too long for it. -/
structure Complete (fuel : Nat) : Prop where
  value : ∀ {blanks text rest : List Char} {v : Value}, Blanks blanks → IsValue text v →
    Ended rest → 2 * text.length ≤ fuel →
    value? fuel (blanks ++ (text ++ rest)) = some (v, rest)
  items : ∀ {text rest : List Char} {items : List Value}, IsElements text items →
    2 * text.length + 1 ≤ fuel → items? fuel (text ++ ']' :: rest) = some (items, rest)
  members : ∀ {text rest : List Char} {members : List (List Nat × Value)},
    IsMembers text members → 2 * text.length + 1 ≤ fuel →
    members? fuel (text ++ '}' :: rest) = some (members, rest)

section

variable {fuel : Nat} {text : List Char}

/-- An element is read up to the comma or the bracket behind it. -/
theorem Complete.element (complete : Complete fuel) {v : Value} (h : IsElement text v)
    (bound : 2 * text.length ≤ fuel) (c : Char) (closing : c ∈ [',', ']', '}'])
    (rest : List Char) :
  ∃ behind, value? fuel (text ++ c :: rest) = some (v, behind) ∧ skipBlanks behind = c :: rest
  := by
  obtain @⟨before, text, behind, v, isBefore, isValue, isBehind⟩ := h
  have all : ∀ c ∈ [',', ']', '}'], isBlank c = false ∧ c.isDigit = false ∧ c ≠ '.' ∧ c ≠ 'e'
      ∧ c ≠ 'E' := by
    simp [isBlank]
  obtain ⟨blank, ended⟩ := all c closing
  use behind ++ c :: rest
  constructor
  · rw [List.append_assoc, List.append_assoc]
    apply complete.value isBefore isValue (ended_append isBehind (ended_cons ended))
    simp only [List.length_append] at bound
    omega
  · rw [skipBlanks_append isBehind, skipBlanks_cons blank]

theorem Complete.items_succ (complete : Complete fuel) {items : List Value}
    (h : IsElements text items) (bound : 2 * text.length ≤ fuel) (rest : List Char) :
  items? (fuel + 1) (text ++ ']' :: rest) = some (items, rest)
  := by
  cases h with
  | one element =>
    obtain ⟨behind, read, closed⟩ := complete.element element bound ']' (by decide) rest
    rw [items?, read]
    simp only [Option.bind_eq_bind, Option.bind_some, closed]
  | @more text texts v items element elements =>
    rw [List.length_append, List.length_cons] at bound
    obtain ⟨behind, read, more⟩ :=
      complete.element element (by omega) ',' (by decide) (texts ++ ']' :: rest)
    rw [List.append_assoc, List.cons_append, items?, read]
    simp only [Option.bind_eq_bind, Option.bind_some, more]
    rw [complete.items elements (by omega), Option.map_some]

/-- A member is read up to the comma or the brace behind it. -/
theorem Complete.member (complete : Complete fuel) {m : List Nat × Value} (h : IsMember text m)
    (bound : 2 * text.length ≤ fuel) (c : Char) (closing : c = ',' ∨ c = '}') (rest : List Char) :
  members? (fuel + 1) (text ++ c :: rest)
    = match c :: rest with
      | ',' :: rest => (members? fuel rest).map fun p => (m :: p.1, p.2)
      | '}' :: rest => some ([m], rest)
      | _ => none
  := by
  obtain @⟨before, key, behind, text, units, v, isBefore, isString, isBehind, element⟩ := h
  simp only [List.length_append, List.length_cons] at bound
  have closes : c ∈ [',', ']', '}'] := by
    rcases closing with rfl | rfl
    all_goals
      decide
  -- The reader stops behind the value, before the blanks that belong to its element.
  obtain ⟨end_, readValue, closed⟩ := complete.element element (by omega) c closes rest
  have quoted : skipBlanks (before ++ '"' :: (key ++ '"' :: (behind ++ ':' :: text)) ++ c :: rest)
      = '"' :: (key ++ '"' :: (behind ++ ':' :: (text ++ c :: rest))) := by
    rw [List.append_assoc, skipBlanks_append isBefore]
    simp [skipBlanks_cons, isBlank]
  have colon : skipBlanks (behind ++ ':' :: (text ++ c :: rest)) = ':' :: (text ++ c :: rest) := by
    rw [skipBlanks_append isBehind, skipBlanks_cons rfl]
  rw [members?, quoted]
  rcases closing with rfl | rfl
  all_goals
    simp only [string?_of_isString isString, Option.bind_eq_bind, Option.bind_some, colon,
      readValue, closed]

theorem Complete.members_succ (complete : Complete fuel) {members : List (List Nat × Value)}
    (h : IsMembers text members) (bound : 2 * text.length ≤ fuel) (rest : List Char) :
  members? (fuel + 1) (text ++ '}' :: rest) = some (members, rest)
  := by
  cases h with
  | one member =>
    rw [complete.member member bound '}' (by decide) rest]
    rfl
  | @more text texts m members member behind =>
    rw [List.length_append, List.length_cons] at bound
    rw [List.append_assoc, List.cons_append, complete.member member (by omega) ',' (by decide)]
    simp only [complete.members behind (by omega), Option.map_some]

theorem Complete.value_succ (complete : Complete fuel) {blanks rest : List Char} {v : Value}
    (isBlanks : Blanks blanks) (h : IsValue text v) (ended : Ended rest)
    (bound : 2 * text.length ≤ fuel + 1) :
  value? (fuel + 1) (blanks ++ (text ++ rest)) = some (v, rest)
  := by
  have front : skipBlanks (blanks ++ (text ++ rest)) = text ++ rest := by
    rw [skipBlanks_append isBlanks, skipBlanks_of_isValue h]
  cases h with
  | null => rw [value?, front]; rfl
  | true => rw [value?, front]; rfl
  | false => rw [value?, front]; rfl
  | number isNumber =>
    have read := number?_of_isNumber isNumber ended
    obtain ⟨c, tail, rfl, begins⟩ := head_of_isNumber isNumber
    rw [List.cons_append] at front read
    rw [List.cons_append, value?_of_beginsNumber begins front, read, Option.map_some]
  | @string text units isString =>
    rw [value?, front]
    have read : string? (text ++ '"' :: rest) = some (units, rest) := string?_of_isString isString
    simp [read]
  | @emptyArray inner isInner =>
    rw [value?, front]
    have closed : skipBlanks (inner ++ ']' :: rest) = ']' :: rest := by
      rw [skipBlanks_append isInner, skipBlanks_cons rfl]
    simp [closed]
  | @array inner items elements =>
    have front : skipBlanks (blanks ++ ('[' :: (inner ++ [']']) ++ rest))
        = '[' :: (inner ++ ']' :: rest) := by
      rw [front]
      simp
    rw [value?_array front, complete.items elements]
    · rfl
    · simp only [List.length_cons, List.length_append, List.length_nil] at bound
      omega
    · apply skipBlanks_of_isElements elements
  | @emptyObject inner isInner =>
    rw [value?, front]
    have closed : skipBlanks (inner ++ '}' :: rest) = '}' :: rest := by
      rw [skipBlanks_append isInner, skipBlanks_cons rfl]
    simp [closed]
  | @object inner members isMembers =>
    have front : skipBlanks (blanks ++ ('{' :: (inner ++ ['}']) ++ rest))
        = '{' :: (inner ++ '}' :: rest) := by
      rw [front]
      simp
    rw [value?_object front, complete.members isMembers]
    · rfl
    · simp only [List.length_cons, List.length_append, List.length_nil] at bound
      omega
    · apply skipBlanks_of_isMembers isMembers

end

/-- The readers read what the grammar allows. -/
theorem complete (fuel : Nat) :
  Complete fuel
  := by
  induction fuel with
  | zero =>
    constructor
    · intro blanks text rest v _ h _ bound
      obtain ⟨c, tail, rfl, -⟩ := head_of_isValue h
      cases bound
    · intro text rest items _ bound
      cases bound
    · intro text rest members _ bound
      cases bound
  | succ fuel ih =>
    constructor
    · intro blanks text rest v isBlanks h ended bound
      apply ih.value_succ isBlanks h ended bound
    · intro text rest items h bound
      apply ih.items_succ h (by omega)
    · intro text rest members h bound
      apply ih.members_succ h (by omega)

/-! ### What is read is what the grammar allows -/

/-- With some fuel, the readers read only what the grammar allows. -/
structure Sound (fuel : Nat) : Prop where
  value : ∀ {text rest : List Char} {v : Value}, value? fuel text = some (v, rest) →
    ∃ blanks front, Blanks blanks ∧ IsValue front v ∧ text = blanks ++ (front ++ rest)
  items : ∀ {text rest : List Char} {items : List Value},
    items? fuel text = some (items, rest) →
    ∃ front, IsElements front items ∧ text = front ++ ']' :: rest
  members : ∀ {text rest : List Char} {members : List (List Nat × Value)},
    members? fuel text = some (members, rest) →
    ∃ front, IsMembers front members ∧ text = front ++ '}' :: rest

section

variable {fuel : Nat} {text rest : List Char}

/-- A value that is read, with the blanks that are skipped behind it, is an element. -/
theorem Sound.element (sound : Sound fuel) {v : Value} {behind : List Char}
    (read : value? fuel text = some (v, behind)) (skipped : skipBlanks behind = rest) :
  ∃ front, IsElement front v ∧ text = front ++ rest
  := by
  obtain ⟨before, front, isBefore, isValue, rfl⟩ := sound.value read
  obtain ⟨blanks, isBlanks, rfl⟩ := exists_of_skipBlanks skipped
  use before ++ front ++ blanks
  constructor
  · apply IsElement.mk isBefore isValue isBlanks
  · simp

theorem Sound.items_succ (sound : Sound fuel) {items : List Value}
    (h : items? (fuel + 1) text = some (items, rest)) :
  ∃ front, IsElements front items ∧ text = front ++ ']' :: rest
  := by
  rw [items?] at h
  obtain ⟨⟨v, behind⟩, read, h⟩ := Option.bind_eq_some_iff.mp h
  dsimp only at h
  split at h
  · next tail skipped =>
    obtain ⟨⟨items, rest⟩, readItems, ⟨⟩⟩ := Option.map_eq_some_iff.mp h
    obtain ⟨front, element, rfl⟩ := sound.element read skipped
    obtain ⟨fronts, elements, rfl⟩ := sound.items readItems
    use front ++ ',' :: fronts
    constructor
    · apply IsElements.more element elements
    · simp
  · next tail skipped =>
    cases h
    obtain ⟨front, element, rfl⟩ := sound.element read skipped
    use front, IsElements.one element
  · cases h

/-- A key that is read, with the value behind its colon, is a member. -/
theorem Sound.member (sound : Sound fuel) {units : List Nat} {v : Value}
    {quoted key value behind : List Char} (opened : skipBlanks text = '"' :: quoted)
    (readKey : string? quoted = some (units, key)) (separated : skipBlanks key = ':' :: value)
    (read : value? fuel value = some (v, behind)) (skipped : skipBlanks behind = rest) :
  ∃ front, IsMember front (units, v) ∧ text = front ++ rest
  := by
  obtain ⟨before, isBefore, rfl⟩ := exists_of_skipBlanks opened
  obtain ⟨front, rfl, isString⟩ := exists_of_string? readKey
  obtain ⟨blanks, isBlanks, rfl⟩ := exists_of_skipBlanks separated
  obtain ⟨element, isElement, rfl⟩ := sound.element read skipped
  use before ++ '"' :: (front ++ '"' :: (blanks ++ ':' :: element))
  constructor
  · apply IsMember.mk isBefore isString isBlanks isElement
  · simp

theorem Sound.members_succ (sound : Sound fuel) {members : List (List Nat × Value)}
    (h : members? (fuel + 1) text = some (members, rest)) :
  ∃ front, IsMembers front members ∧ text = front ++ '}' :: rest
  := by
  rw [members?] at h
  split at h
  · next quoted opened =>
    obtain ⟨⟨units, key⟩, readKey, h⟩ := Option.bind_eq_some_iff.mp h
    dsimp only at h
    split at h
    · next value separated =>
      obtain ⟨⟨v, behind⟩, read, h⟩ := Option.bind_eq_some_iff.mp h
      dsimp only at h
      split at h
      · next tail skipped =>
        obtain ⟨⟨members, rest⟩, readMembers, ⟨⟩⟩ := Option.map_eq_some_iff.mp h
        obtain ⟨front, member, rfl⟩ := sound.member opened readKey separated read skipped
        obtain ⟨fronts, isMembers, rfl⟩ := sound.members readMembers
        use front ++ ',' :: fronts
        constructor
        · apply IsMembers.more member isMembers
        · simp
      · next tail skipped =>
        cases h
        obtain ⟨front, member, rfl⟩ := sound.member opened readKey separated read skipped
        use front, IsMembers.one member
      · cases h
    · cases h
  · cases h

theorem Sound.value_succ (sound : Sound fuel) {v : Value}
    (h : value? (fuel + 1) text = some (v, rest)) :
  ∃ blanks front, Blanks blanks ∧ IsValue front v ∧ text = blanks ++ (front ++ rest)
  := by
  obtain ⟨blanks, isBlanks, parts⟩ := exists_of_skipBlanks (rfl : skipBlanks text = _)
  suffices ∃ front, IsValue front v ∧ skipBlanks text = front ++ rest by
    obtain ⟨front, isValue, same⟩ := this
    use blanks, front, isBlanks, isValue
    rw [← same, ← parts]
  rw [value?] at h
  split at h
  · next inner opened =>
    rw [opened]
    split at h
    · next tail closed =>
      cases h
      obtain ⟨inside, isInside, rfl⟩ := exists_of_skipBlanks closed
      use '[' :: (inside ++ [']']), IsValue.emptyArray isInside
      simp
    · obtain ⟨⟨items, rest⟩, read, ⟨⟩⟩ := Option.map_eq_some_iff.mp h
      rw [items?_skipBlanks] at read
      obtain ⟨front, elements, rfl⟩ := sound.items read
      use '[' :: (front ++ [']']), IsValue.array elements
      simp
  · next inner opened =>
    rw [opened]
    split at h
    · next tail closed =>
      cases h
      obtain ⟨inside, isInside, rfl⟩ := exists_of_skipBlanks closed
      use '{' :: (inside ++ ['}']), IsValue.emptyObject isInside
      simp
    · obtain ⟨⟨members, rest⟩, read, ⟨⟩⟩ := Option.map_eq_some_iff.mp h
      rw [members?_skipBlanks] at read
      obtain ⟨front, isMembers, rfl⟩ := sound.members read
      use '{' :: (front ++ ['}']), IsValue.object isMembers
      simp
  · next inner opened =>
    rw [opened]
    obtain ⟨⟨units, rest⟩, read, ⟨⟩⟩ := Option.map_eq_some_iff.mp h
    obtain ⟨front, rfl, isString⟩ := exists_of_string? read
    use '"' :: (front ++ ['"']), IsValue.string isString
    simp
  · next inner opened =>
    rw [opened]
    obtain ⟨rest, read, ⟨⟩⟩ := Option.map_eq_some_iff.mp h
    rw [afterWord?_eq_some_iff.mp read]
    use ['n', 'u', 'l', 'l'], IsValue.null
    rfl
  · next inner opened =>
    rw [opened]
    obtain ⟨rest, read, ⟨⟩⟩ := Option.map_eq_some_iff.mp h
    rw [afterWord?_eq_some_iff.mp read]
    use ['t', 'r', 'u', 'e'], IsValue.true
    rfl
  · next inner opened =>
    rw [opened]
    obtain ⟨rest, read, ⟨⟩⟩ := Option.map_eq_some_iff.mp h
    rw [afterWord?_eq_some_iff.mp read]
    use ['f', 'a', 'l', 's', 'e'], IsValue.false
    rfl
  · obtain ⟨⟨n, rest⟩, read, ⟨⟩⟩ := Option.map_eq_some_iff.mp h
    obtain ⟨front, same, isNumber⟩ := exists_of_number? read
    use front, IsValue.number isNumber, same

end

/-- The readers read only what the grammar allows. -/
theorem sound (fuel : Nat) :
  Sound fuel
  := by
  induction fuel with
  | zero =>
    constructor
    · intro text rest v h
      rw [value?] at h
      cases h
    · intro text rest items h
      rw [items?] at h
      cases h
    · intro text rest members h
      rw [members?] at h
      cases h
  | succ fuel ih => exact ⟨ih.value_succ, ih.items_succ, ih.members_succ⟩

/-- The texts that are read are the JSON texts, each with its value. -/
theorem parse?_eq_some_iff {text : List Char} {v : Value} :
  parse? text = some v ↔ IsElement text v
  := by
  rw [parse?]
  constructor
  · intro h
    split at h
    · next v' rest read =>
      split at h
      · next empty =>
        cases h
        obtain ⟨front, element, parts⟩ :=
          (sound _).element read (List.isEmpty_iff.mp empty)
        rw [List.append_nil] at parts
        rwa [parts]
      · cases h
    · cases h
  · rintro @⟨before, text, behind, v, isBefore, isValue, isBehind⟩
    have ended : Ended behind := by
      have := ended_append isBehind ended_nil
      rwa [List.append_nil] at this
    have skipped : skipBlanks behind = [] := by
      have := skipBlanks_append isBehind []
      rwa [List.append_nil] at this
    rw [List.append_assoc, (complete _).value isBefore isValue ended]
    · simp [skipped]
    · simp only [List.length_append]
      omega

end ImageRefs.Json
