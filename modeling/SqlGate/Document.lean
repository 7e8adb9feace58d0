import SqlGate.Json.Fault

/-!
# Documents read as records

A configuration may come as JSON or as YAML. Both become a `Document`: YAML leaves the meaning of
an unquoted scalar to who reads it, and only in JSON may a list give the fields of a record in
their order. A `Read` takes a document as a value or says what does not fit; the fields of a record
are read in the order of the document, and what is missing is looked for at the end.
-/

namespace SqlGate

/-- A document of a configuration. -/
inductive Document where
  | null
  | bool (b : Bool)
  | num (n : Json.Num)
  | text (s : String)
  /-- A scalar without quotes, whose meaning its reader decides. -/
  | plain (s : String)
  /-- A list, which may stand for the fields of a record or not. -/
  | list (isPositional : Bool) (items : List Document)
  | record (members : List (String × Document))
  /-- A mapping with keys that are no texts, which nothing can be read from. -/
  | unnamed
  deriving Repr

namespace Document

/-- A JSON value as a document. -/
def ofJson : Json → Document
  | .null => .null
  | .bool b => .bool b
  | .num n => .num n
  | .str s => .text s
  | .arr xs => .list true (ofItems xs)
  | .obj ms => .record (ofMembers ms)
where
  /-- The items of an array as documents. -/
  ofItems : List Json → List Document
    | [] => []
    | x :: xs => ofJson x :: ofItems xs
  /-- The members of an object as documents. -/
  ofMembers : List (String × Json) → List (String × Document)
    | [] => []
    | (k, v) :: ms => (k, ofJson v) :: ofMembers ms

/-- A document as a JSON value; a scalar without quotes is a text. -/
def toJson : Document → Json
  | null => .null
  | bool b => .bool b
  | num n => .num n
  | text s => .str s
  | plain s => .str s
  | list _ ds => .arr (itemsJson ds)
  | record ms => .obj (membersJson ms)
  | unnamed => .null
where
  /-- The items of a list as JSON values. -/
  itemsJson : List Document → List Json
    | [] => []
    | d :: ds => toJson d :: itemsJson ds
  /-- The members of a record as JSON values. -/
  membersJson : List (String × Document) → List (String × Json)
    | [] => []
    | (k, d) :: ms => (k, toJson d) :: membersJson ms

/-- Takes a document as a value. -/
abbrev Read (α : Type) := Document → Except Json.Mismatch α

/-- What a document is, at its outermost. -/
def found : Document → Json.Found
  | null => .null
  | bool b => .bool b
  | num (.int i) => .int i
  | num (.real x) => .real x
  | text s => .str s
  | plain s => .str s
  | list .. => .seq
  | record _ => .map
  | unnamed => .map

/-- The mismatch of a document. -/
def mismatch (expected : String) (d : Document) : Except Json.Mismatch α :=
  .error (.invalidType d.found expected)

/-- A text; a scalar without quotes is one whatever it says. -/
def string : Read String
  | text s => .ok s
  | plain s => .ok s
  | d => d.mismatch "a string"

/-- Any document, as a JSON value. -/
def json : Read Json := fun d => .ok d.toJson

/-- A truth value. -/
def boolean : Read Bool
  | bool b => .ok b
  | plain s =>
    if ["true", "True", "TRUE"].contains s then .ok true
    else if ["false", "False", "FALSE"].contains s then .ok false
    else (plain s).mismatch "a boolean"
  | d => d.mismatch "a boolean"

/-- The value of some digits in a base, if there are any and all of them are digits of it. -/
def digitsIn? (base : Nat) (cs : List Char) : Option Nat :=
  if cs.isEmpty then none
  else cs.foldlM (fun n c => do
    let d ← Text.Hex.digit? c
    if d < base then some (n * base + d) else none) 0

/-- The natural number that a scalar without quotes says: decimal without zeros in front, or with
the mark of another base; a plus sign may stand before it. -/
def plainNat? (s : String) : Option Nat :=
  let cs := s.toList
  let cs := if cs.head? = some '+' then cs.drop 1 else cs
  match cs with
  | '0' :: 'x' :: ds => digitsIn? 16 ds
  | '0' :: 'o' :: ds => digitsIn? 8 ds
  | '0' :: 'b' :: ds => digitsIn? 2 ds
  | ['0'] => some 0
  | '0' :: _ => none
  | ds => digitsIn? 10 ds

/-- An unsigned number of so many bits, known by a name. -/
def unsigned (bits : Nat) (name : String) : Read Nat
  | num (.int i) =>
    if 0 ≤ i ∧ i < Nat.pow 2 bits then .ok i.toNat else .error (.invalidValue (.int i) name)
  | plain s =>
    match plainNat? s with
    | some n => if n < Nat.pow 2 bits then .ok n else .error (.invalidValue (.int n) name)
    | none => (plain s).mismatch name
  | d => d.mismatch name

/-- Whether a document stands for nothing. -/
def isNothing : Document → Bool
  | null => true
  | plain s => ["", "~", "null", "Null", "NULL"].contains s
  | _ => false

/-- A value or nothing. -/
def optional (read : Read α) : Read (Option α) := fun d =>
  if d.isNothing then .ok none else some <$> read d

/-- The items of a list. -/
def items (read : Read α) : Read (List α)
  | list _ ds => ds.mapM read
  | plain "" => .ok []
  | d => d.mismatch "a sequence"

/-- A field of a record under construction. -/
structure Field (σ : Type) where
  name : String
  isRequired : Bool
  read : Document → σ → Except Json.Mismatch σ

/-- A field that sets a part of a record. -/
def Field.of (name : String) (isRequired : Bool) (read : Read α) (set : α → σ → σ) : Field σ :=
  ⟨name, isRequired, fun d r => do return set (← read d) r⟩

/-- The members of a record, given the names of those already read. Members of other names are
passed over, or refused where the record is closed. -/
def readMembers (isClosed : Bool) (fields : List (Field σ)) :
    List String → List (String × Document) → σ → Except Json.Mismatch σ
  | seen, [], r =>
    match fields.find? fun f => f.isRequired && !seen.contains f.name with
    | some f => .error (.missingField f.name)
    | none => .ok r
  | seen, (k, d) :: ms, r =>
    match fields.find? (·.name = k) with
    | none =>
      if isClosed then .error (.unknownField k (fields.map (·.name)))
      else readMembers isClosed fields seen ms r
    | some f =>
      if seen.contains k then .error (.duplicateField k)
      else do readMembers isClosed fields (k :: seen) ms (← f.read d r)

/-- The fields of a record in their order, `n` of them read. -/
def readItems (what : String) : Nat → List (Field σ) → List Document → σ → Except Json.Mismatch σ
  | _, [], [], r => .ok r
  | n, [], ds, _ => .error (.invalidLength (n + ds.length) "fewer elements in array")
  | n, f :: fs, [], r =>
    if f.isRequired then .error (.invalidLength n what) else readItems what (n + 1) fs [] r
  | n, f :: fs, d :: ds, r => do readItems what (n + 1) fs ds (← f.read d r)

/-- A record with the given fields, which starts out as `empty`. -/
def structOf (isClosed : Bool) (name : String) (fields : List (Field σ)) (empty : σ) : Read σ
  | record ms => readMembers isClosed fields [] ms empty
  | list true ds =>
    let count := if fields.length = 1 then "1 element" else s!"{fields.length} elements"
    readItems ("struct " ++ name ++ " with " ++ count) 0 fields ds empty
  | plain "" => readMembers isClosed fields [] [] empty
  | d => d.mismatch ("struct " ++ name)

/-- A record that may have other fields beside the given ones. -/
def struct (name : String) (fields : List (Field σ)) (empty : σ) : Read σ :=
  structOf false name fields empty

/-- A record that has no fields but the given ones. -/
def closedStruct (name : String) (fields : List (Field σ)) (empty : σ) : Read σ :=
  structOf true name fields empty

/-- One of some names, each of which may also be written as an object with nothing in it. -/
def choice (names : List (String × α)) : Read α
  | text s => named s
  | plain s => named s
  | record [(k, null)] => named k
  | record [(k, d)] => do
    let _ ← named k
    d.mismatch "unit variant"
  | record _ => .error (.invalidValue .map "map with a single key")
  | d => d.mismatch "string or map"
where
  /-- The value of a name. -/
  named (s : String) : Except Json.Mismatch α :=
    match names.lookup s with
    | some v => .ok v
    | none => .error (.unknownVariant s (names.map (·.1)))

end Document

end SqlGate
