import SqlGate.Json.Numeral

/-!
# Reading JSON

`Json.ofString` reads a whole text as a value. Every function here takes the cursor it starts at
and returns the cursor after what it read, or the first fault. Nesting is limited: an array or
object inside `maxDepth - 1` others is the innermost one that is read. The `fuel` arguments bound
loops by the length of the text, which no run reaches.
-/

namespace SqlGate.Json

/-- One more than the number of arrays and objects that may stand inside each other. -/
def maxDepth : Nat := 128

/-- The value of four hexadecimal digits, with the cursor after them. -/
def hexEscape (c : Cursor) : Except Fault (Nat × Cursor) :=
  if c.bytesLeft < 4 then .error (Cursor.fail .eofInString ⟨[], Cursor.placeAfter c.place c.rest⟩)
  else
    match (c.rest.take 4).map Text.Hex.digit? with
    | [some w, some x, some y, some z] =>
      .ok (((w * 16 + x) * 16 + y) * 16 + z,
        ⟨c.rest.drop 4, Cursor.placeAfter c.place (c.rest.take 4)⟩)
    | _ => .error (.syntaxAt .invalidEscape (Cursor.placeAfterBytes 4 c.place c.rest))

/-- The next character, which a string must not end before. -/
def needChar (c : Cursor) : Except Fault (Char × Cursor) :=
  match c.peek? with
  | none => .error (c.fail .eofInString)
  | some x => .ok (x, c.advance)

/-- The character of a `\u` escape, the cursor standing after the `u`. Two escapes make one
character beyond the basic plane; half of such a pair is refused. -/
def unicodeEscape (c : Cursor) : Except Fault (Char × Cursor) := do
  let (n, c) ← hexEscape c
  if 0xDC00 ≤ n ∧ n ≤ 0xDFFF then .error (c.fail .loneSurrogate)
  else if n < 0xD800 ∨ 0xDBFF < n then .ok (Char.ofNat n, c)
  else
    let (x, c) ← needChar c
    if x ≠ '\\' then .error (c.fail .hexEscapeEnd)
    else
      let (x, c) ← needChar c
      if x ≠ 'u' then .error (c.fail .hexEscapeEnd)
      else
        let (m, c) ← hexEscape c
        if m < 0xDC00 ∨ 0xDFFF < m then .error (c.fail .loneSurrogate)
        else .ok (Char.ofNat ((n - 0xD800) * 1024 + (m - 0xDC00) + 0x10000), c)

/-- The character of an escape, the cursor standing after the backslash. -/
def escapeChar (c : Cursor) : Except Fault (Char × Cursor) := do
  let (x, c) ← needChar c
  match x with
  | '"' => .ok ('"', c)
  | '\\' => .ok ('\\', c)
  | '/' => .ok ('/', c)
  | 'b' => .ok (Char.ofNat 8, c)
  | 'f' => .ok (Char.ofNat 12, c)
  | 'n' => .ok ('\n', c)
  | 'r' => .ok ('\r', c)
  | 't' => .ok ('\t', c)
  | 'u' => unicodeEscape c
  | _ => .error (c.fail .invalidEscape)

/-- The characters up to the closing quote. -/
def stringBody : Nat → Cursor → Except Fault (List Char × Cursor)
  | 0, c => .error (c.fail .eofInString)
  | fuel + 1, c =>
    match c.peek? with
    | none => .error (c.fail .eofInString)
    | some x =>
      if x = '"' then .ok ([], c.advance)
      else if x = '\\' then do
        let (y, c) ← escapeChar c.advance
        let (ys, c) ← stringBody fuel c
        return (y :: ys, c)
      else if x.toNat < 32 then .error (c.advance.fail .controlCharacter)
      else do
        let (ys, c) ← stringBody fuel c.advance
        return (x :: ys, c)

/-- The string whose opening quote has been read. -/
def stringRest (c : Cursor) : Except Fault (String × Cursor) := do
  let (cs, c) ← stringBody (c.rest.length + 1) c
  return (String.ofList cs, c)

/-- Whether an array goes on, the cursor standing after its bracket or after an item. -/
def moreItems (first : Bool) (c : Cursor) : Except Fault (Bool × Cursor) :=
  let c := c.skipBlanks
  match c.peek? with
  | none => .error (c.failPeek .eofInList)
  | some x =>
    if x = ']' then .ok (false, c)
    else if first then .ok (true, c)
    else if x = ',' then
      let c := c.advance.skipBlanks
      match c.peek? with
      | none => .error (c.failPeek .eofInValue)
      | some y => if y = ']' then .error (c.failPeek .trailingComma) else .ok (true, c)
    else .error (c.failPeek .expectedListEnd)

/-- Whether an object goes on, the cursor standing after its brace or after a member. When it does
the cursor stands before the quote of a key. -/
def moreMembers (first : Bool) (c : Cursor) : Except Fault (Bool × Cursor) :=
  let c := c.skipBlanks
  match c.peek? with
  | none => .error (c.failPeek .eofInObject)
  | some x =>
    if x = '\x7d' then .ok (false, c)
    else if first then
      if x = '"' then .ok (true, c) else .error (c.failPeek .keyNotString)
    else if x = ',' then
      let c := c.advance.skipBlanks
      match c.peek? with
      | none => .error (c.failPeek .eofInValue)
      | some y =>
        if y = '"' then .ok (true, c)
        else if y = '\x7d' then .error (c.failPeek .trailingComma)
        else .error (c.failPeek .keyNotString)
    else .error (c.failPeek .expectedObjectEnd)

/-- The cursor after the bracket that ends an array. -/
def endList (c : Cursor) : Except Fault Cursor :=
  let c := c.skipBlanks
  match c.peek? with
  | none => .error (c.failPeek .eofInList)
  | some x =>
    if x = ']' then .ok c.advance
    else if x = ',' then
      let c := c.advance.skipBlanks
      .error (c.failPeek (if c.peek? = some ']' then .trailingComma else .trailingCharacters))
    else .error (c.failPeek .trailingCharacters)

/-- The cursor after the brace that ends an object. -/
def endObject (c : Cursor) : Except Fault Cursor :=
  let c := c.skipBlanks
  match c.peek? with
  | none => .error (c.failPeek .eofInObject)
  | some x =>
    if x = '\x7d' then .ok c.advance
    else if x = ',' then .error (c.failPeek .trailingComma)
    else .error (c.failPeek .trailingCharacters)

/-- The cursor after the colon between a key and its value. -/
def colon (c : Cursor) : Except Fault Cursor :=
  let c := c.skipBlanks
  match c.peek? with
  | none => .error (c.failPeek .eofInObject)
  | some x => if x = ':' then .ok c.advance else .error (c.failPeek .expectedColon)

/-- The value that a character starts which is no bracket or brace. -/
def scalar (x : Char) (c : Cursor) : Except Fault (Json × Cursor) :=
  if x = 'n' then do return (.null, ← Cursor.word "ull".toList c.advance)
  else if x = 't' then do return (.bool true, ← Cursor.word "rue".toList c.advance)
  else if x = 'f' then do return (.bool false, ← Cursor.word "alse".toList c.advance)
  else if x = '-' then do
    let (n, c) ← Numeral.read true c.advance
    return (.num n, c)
  else if (digitValue? x).isSome then do
    let (n, c) ← Numeral.read false c
    return (.num n, c)
  else if x = '"' then do
    let (s, c) ← stringRest c.advance
    return (.str s, c)
  else .error (c.failPeek .expectedValue)

mutual

/-- A value, `depth` counting the nesting that is left. -/
def value : Nat → Nat → Cursor → Except Fault (Json × Cursor)
  | 0, _, c => .error (c.fail .eofInValue)
  | fuel + 1, depth, c =>
    let c := c.skipBlanks
    match c.peek? with
    | none => .error (c.failPeek .eofInValue)
    | some x =>
      if x = '[' then
        if depth ≤ 1 then .error (c.failPeek .tooDeep)
        else do
          let (xs, c) ← items fuel (depth - 1) true c.advance
          return (.arr xs, ← endList c)
      else if x = '\x7b' then
        if depth ≤ 1 then .error (c.failPeek .tooDeep)
        else do
          let (ms, c) ← members fuel (depth - 1) true [] c.advance
          return (.obj ms, ← endObject c)
      else scalar x c

/-- The items of an array. -/
def items : Nat → Nat → Bool → Cursor → Except Fault (List Json × Cursor)
  | 0, _, _, c => .error (c.fail .eofInList)
  | fuel + 1, depth, first, c => do
    let (more, c) ← moreItems first c
    if more then
      let (x, c) ← value fuel depth c
      let (xs, c) ← items fuel depth false c
      return (x :: xs, c)
    else return ([], c)

/-- The members of an object, added to those already read. -/
def members : Nat → Nat → Bool → List (String × Json) → Cursor →
    Except Fault (List (String × Json) × Cursor)
  | 0, _, _, _, c => .error (c.fail .eofInObject)
  | fuel + 1, depth, first, acc, c => do
    let (more, c) ← moreMembers first c
    if more then
      let (k, c) ← stringRest c.advance
      let c ← colon c
      let (v, c) ← value fuel depth c
      members fuel depth false (insert k v acc) c
    else return (acc, c)

end

/-- The fuel that a text needs at most. -/
def fuelFor (c : Cursor) : Nat := 2 * c.rest.length + 2

/-- Nothing but blanks may follow a document. -/
def atEnd (c : Cursor) : Except Fault Unit :=
  let c := c.skipBlanks
  match c.peek? with
  | none => .ok ()
  | some _ => .error (c.failPeek .trailingCharacters)

/-- The value of a text with a limit on nesting. -/
def ofStringDepth (depth : Nat) (s : String) : Except Fault Json := do
  let c := Cursor.ofString s
  let (v, c) ← value (fuelFor c) depth c
  atEnd c
  return v

/-- The value of a text. -/
def ofString (s : String) : Except Fault Json := ofStringDepth maxDepth s

/-- The value of a text, if it is one. -/
def ofString? (s : String) : Option Json := (ofString s).toOption

end SqlGate.Json
