import SqlGate.Json.Reader

/-!
# Reading a text as a record

A text is read straight into a record: the first thing that is wrong, in reading order, is what is
reported, be it syntax or shape. A record may be written as an object or as an array of its fields
in their order. Fields of other names are skipped, and skipping checks syntax only.

Where bytes are read that are no text, some letters may be missing: a byte that belongs to no
character is a gap. A gap is passed over in a string that is skipped, and nowhere else.
-/

namespace SqlGate.Json.Typed

/-- Reading at a cursor. -/
abbrev Read (α : Type) := Cursor → Except Fault (α × Cursor)

/-- The mismatch of the value at the cursor, which is read as far as its kind needs. -/
def mismatch (expected : String) (c : Cursor) : Fault :=
  match c.peek? with
  | none => c.failPeek .expectedValue
  | some x =>
    if x = '[' then .mismatchAt (.invalidType .seq expected) c.place
    else if x = '\x7b' then .mismatchAt (.invalidType .map expected) c.place
    else
      match scalar x c with
      | .ok (v, c) => .mismatchAt (.invalidType (found v) expected) c.place
      | .error f => f

/-- A value that starts with the given character, or the fault of what stands there. -/
def starting (start : Char → Bool) (expected : String) (read : Read α) : Read α := fun c =>
  let c := c.skipBlanks
  match c.peek? with
  | none => .error (c.failPeek .eofInValue)
  | some x => if start x then read c else .error (mismatch expected c)

/-- A string. -/
def string : Read String := starting (· = '"') "a string" fun c => stringRest c.advance

/-- A truth value. -/
def bool : Read Bool := starting (fun x => x = 't' || x = 'f') "a boolean" fun c =>
  if c.peek? = some 't' then do return (true, ← Cursor.word "rue".toList c.advance)
  else do return (false, ← Cursor.word "alse".toList c.advance)

/-- An unsigned 64-bit number. -/
def unsigned : Read Nat :=
  starting (fun x => x = '-' || (digitValue? x).isSome) "u64" fun c => do
    let (n, c) ← if c.peek? = some '-' then Numeral.read true c.advance else Numeral.read false c
    match n with
    | .int i =>
      if 0 ≤ i then return (i.toNat, c)
      else .error (.mismatchAt (.invalidValue (.int i) "u64") c.place)
    | .real x => .error (.mismatchAt (.invalidType (.real x) "u64") c.place)

/-- A value or null. -/
def optional (read : Read α) : Read (Option α) := fun c =>
  let c := c.skipBlanks
  if c.peek? = some 'n' then do return (none, ← Cursor.word "ull".toList c.advance)
  else do
    let (v, c) ← read c
    return (some v, c)

/-- The items of an array of one kind. -/
def itemsOf (read : Read α) : Nat → Bool → Read (List α)
  | 0, _, c => .error (c.fail .eofInList)
  | fuel + 1, first, c => do
    let (more, c) ← moreItems first c
    if more then
      let (x, c) ← read c
      let (xs, c) ← itemsOf read fuel false c
      return (x :: xs, c)
    else return ([], c)

/-- An array of one kind. -/
def list (read : Read α) : Read (List α) := starting (· = '[') "a sequence" fun c => do
  let (xs, c) ← itemsOf read (fuelFor c) true c.advance
  return (xs, ← endList c)

/-- The members of any object, `depth` counting the nesting that is left. -/
def anyObject (depth : Nat) : Read (List (String × Json)) :=
  starting (· = '\x7b') "a map" fun c => do
    let (ms, c) ← members (fuelFor c) depth true [] c.advance
    return (ms, ← endObject c)

/-- The cursor after a skipped numeral. -/
def skipNumeral (c : Cursor) : Except Fault Cursor :=
  match c.peek? with
  | none => .error (c.fail .eofInValue)
  | some x =>
    if (digitValue? x).isNone then .error (c.advance.fail .invalidNumber)
    else
      let leadingZero := x = '0'
      let (ds, c1) := if leadingZero then ([0], c.advance) else Numeral.digitRun c
      if leadingZero ∧ (c1.peek?.bind digitValue?).isSome then .error (c1.failPeek .invalidNumber)
      else
        let _ := ds
        let fraction : Except Fault Cursor :=
          if c1.peek? = some '.' then
            match Numeral.digitRun c1.advance with
            | ([], c2) => .error (c2.failPeek .invalidNumber)
            | (_, c2) => .ok c2
          else .ok c1
        fraction.bind fun c2 =>
          if Numeral.atExponent c2 then
            let c3 := c2.advance
            let c3 := if c3.peek? = some '+' ∨ c3.peek? = some '-' then c3.advance else c3
            match Numeral.digitRun c3 with
            | ([], c4) => .error (c4.advance.fail .invalidNumber)
            | (_, c4) => .ok c4
          else .ok c2

/-- The cursor after a skipped string, whose opening quote has been read. Escapes of half a
surrogate pair pass. -/
def skipString : Nat → Cursor → Except Fault Cursor
  | 0, c => .error (c.fail .eofInString)
  | fuel + 1, c =>
    match c.peek? with
    | none => .error (c.fail .eofInString)
    | some x =>
      if x = '"' then .ok c.advance
      else if x = '\\' then do
        let (y, c) ← needChar c.advance
        if "\"\\/bfnrt".toList.contains y then skipString fuel c
        else if y = 'u' then
          let (_, c) ← hexEscape c
          skipString fuel c
        else .error (c.fail .invalidEscape)
      else if x.toNat < 32 then .error (c.advance.fail .controlCharacter)
      else skipString fuel c.advance

mutual

/-- The cursor after a skipped value. -/
def skip : Nat → Cursor → Except Fault Cursor
  | 0, c => .error (c.fail .eofInValue)
  | fuel + 1, c =>
    let c := c.skipBlanks
    match c.peek? with
    | none => .error (c.failPeek .eofInValue)
    | some x =>
      if x = '[' then
        let c := c.advance.skipBlanks
        if c.peek? = some ']' then .ok c.advance
        else if c.peek? = none then .error (c.failPeek .eofInList)
        else skipItems fuel c
      else if x = '\x7b' then
        let c := c.advance.skipBlanks
        if c.peek? = some '\x7d' then .ok c.advance
        else skipMembers fuel c
      else if x = '"' then skipString (c.rest.length + 1) c.advance
      else if x = '-' then skipNumeral c.advance
      else if (digitValue? x).isSome then skipNumeral c
      else (·.2) <$> scalar x c

/-- The cursor after the skipped items of an array, one of which is next. -/
def skipItems : Nat → Cursor → Except Fault Cursor
  | 0, c => .error (c.fail .eofInList)
  | fuel + 1, c => do
    let c := (← skip fuel c).skipBlanks
    match c.peek? with
    | none => .error (c.failPeek .eofInList)
    | some x =>
      if x = ',' then skipItems fuel c.advance
      else if x = ']' then .ok c.advance
      else .error (c.failPeek .expectedListEnd)

/-- The cursor after the skipped members of an object, the key of one of which is next. -/
def skipMembers : Nat → Cursor → Except Fault Cursor
  | 0, c => .error (c.fail .eofInObject)
  | fuel + 1, c =>
    let c := c.skipBlanks
    match c.peek? with
    | none => .error (c.failPeek .eofInObject)
    | some x =>
      if x ≠ '"' then .error (c.failPeek .keyNotString)
      else do
        let c ← skipString (c.rest.length + 1) c.advance
        let c := (← skip fuel (← colon c)).skipBlanks
        match c.peek? with
        | none => .error (c.failPeek .eofInObject)
        | some y =>
          if y = ',' then skipMembers fuel c.advance
          else if y = '\x7d' then .ok c.advance
          else .error (c.failPeek .expectedObjectEnd)

end

/-- The letters of a byte string, with a gap for each byte that belongs to no character. -/
abbrev Letters := List (Option Char)

/-- The letters between two cursors, the second of which is the later one. -/
def between (ls : Letters) (c c' : Cursor) : Letters :=
  (ls.drop (ls.length - c.rest.length)).take (c.rest.length - c'.rest.length)

/-- Reads what may begin with a string, which has to be without gaps then. -/
def solid (ls : Letters) (read : Read α) : Read α := fun c =>
  let start := c.skipBlanks
  if start.peek? = some '"' then
    match stringRest start.advance with
    | .ok (_, final) =>
      if (between ls start final).contains none then .error (final.fail .invalidCodePoint)
      else read c
    | .error _ => read c
  else read c

/-- A field of a record under construction. -/
structure Field (σ : Type) where
  name : String
  /-- Whether the record may lack it. -/
  optional : Bool
  isSet : σ → Bool
  read : σ → Read σ

/-- How the members of a record can go wrong: with a fault that has its place, or with a mismatch
whose place is only known once the end of the record was looked for. -/
inductive Trouble where
  | fault (f : Fault)
  | shape (m : Mismatch) (c : Cursor)

/-- A fault is a trouble. -/
def Trouble.lift : Except Fault α → Except Trouble α
  | .ok v => .ok v
  | .error f => .error (.fault f)

/-- The first field that is needed and was not given. -/
def missing? (fields : List (Field σ)) (record : σ) : Option String :=
  (fields.find? fun f => !f.optional && !f.isSet record).map Field.name

/-- The members of a record written as an object. -/
def fieldMembers (ls : Letters) (fields : List (Field σ)) : Nat → Bool → σ → Cursor →
    Except Trouble (σ × Cursor)
  | 0, _, _, c => .error (.fault (c.fail .eofInObject))
  | fuel + 1, first, record, c => do
    let (more, c) ← Trouble.lift (moreMembers first c)
    if more then
      let (k, c) ← Trouble.lift (solid ls (fun c => stringRest c.advance) c)
      match fields.find? (·.name = k) with
      | some f =>
        if f.isSet record then .error (.shape (.duplicateField k) c)
        else
          let c ← Trouble.lift (colon c)
          let (record, c) ← Trouble.lift (solid ls (f.read record) c)
          fieldMembers ls fields fuel false record c
      | none =>
        let c ← Trouble.lift (colon c)
        let c ← Trouble.lift (skip (fuelFor c) c)
        fieldMembers ls fields fuel false record c
    else
      match missing? fields record with
      | some name => .error (.shape (.missingField name) c)
      | none => return (record, c)

/-- The fields of a record written as an array, `index` of them read. -/
def fieldItems (ls : Letters) (what : String) :
    List (Field σ) → Nat → σ → Cursor → Except Trouble (σ × Cursor)
  | [], _, record, c => .ok (record, c)
  | f :: fs, index, record, c => do
    let (more, c) ← Trouble.lift (moreItems (index = 0) c)
    if more then
      let (record, c) ← Trouble.lift (solid ls (f.read record) c)
      fieldItems ls what fs (index + 1) record c
    else if f.optional then fieldItems ls what fs (index + 1) record c
    else .error (.shape (.invalidLength index what) c)

/-- The place that a mismatch without one gets: after the end of the record where that follows. -/
def placeOf (finish : Cursor → Except Fault Cursor) (c : Cursor) : Place :=
  match finish c with
  | .ok c => c.place
  | .error _ => c.skipBlanks.place

/-- What became of the members of a record, once its end was looked for. -/
def closing (finish : Cursor → Except Fault Cursor) :
    Except Trouble (σ × Cursor) → Except Fault (σ × Cursor)
  | .ok (record, c) => do return (record, ← finish c)
  | .error (.fault f) => .error f
  | .error (.shape m c) => .error (.mismatchAt m (placeOf finish c))

/-- How many fields a record has, in words. -/
def elementsText (n : Nat) : String := if n = 1 then "1 element" else s!"{n} elements"

/-- A record written as an object or as an array. -/
def record (ls : Letters) (name : String) (fields : List (Field σ)) (empty : σ) : Read σ := fun c =>
  let c := c.skipBlanks
  let what := "struct " ++ name
  match c.peek? with
  | none => .error (c.failPeek .eofInValue)
  | some '[' =>
    closing endList
      (fieldItems ls (what ++ " with " ++ elementsText fields.length) fields 0 empty c.advance)
  | some '\x7b' => closing endObject (fieldMembers ls fields (fuelFor c) true empty c.advance)
  | some _ => solid ls (fun c => .error (mismatch what c)) c

/-- Everything from a cursor on read as one record. -/
def wholeFrom (read : Read α) (c : Cursor) : Except Fault α := do
  let (v, c) ← read c
  atEnd c
  return v

/-- A whole text read as one record. -/
def ofString (read : Read α) (s : String) : Except Fault α := wholeFrom read (Cursor.ofString s)

/-- All letters of some bytes read as one record. A gap shows as a character that begins nothing. -/
def ofLetters (read : Letters → Read α) (ls : Letters) : Except Fault α :=
  wholeFrom (read ls) ⟨ls.map (·.getD '?'), ⟨1, 0⟩⟩

end SqlGate.Json.Typed
