import SqlGate.Yaml.Scalar

/-!
# Tokens of YAML

Indentation opens and closes blocks, and what turns out to be a key is marked as one only when its
colon is met: for that, the place of the last possible key is kept for every open flow collection.
`tokens?` gives all tokens of a text.
-/

namespace SqlGate.Yaml

/-- A token. -/
inductive Token where
  /-- A directive; its text is the handle of a tag, if it declares one. -/
  | directive (isVersion : Bool) (handle : String)
  | documentStart
  | documentEnd
  | blockSequence
  | blockMapping
  | blockEnd
  | flowSequence
  | flowSequenceEnd
  | flowMapping
  | flowMappingEnd
  | blockEntry
  | flowEntry
  | key
  | value
  | alias (name : String)
  | anchor (name : String)
  | tag (handle suffix : String)
  | scalar (isPlain : Bool) (text : String)
  deriving Repr, DecidableEq

/-- A place where a key may have started. -/
structure PossibleKey where
  /-- Whether nothing else can stand there. -/
  isRequired : Bool
  /-- How many tokens come before it. -/
  position : Nat
  place : Cursor

/-- What is known while tokens are read. -/
structure Scan where
  cursor : Cursor
  tokens : Array Token
  /-- One more than the column of the innermost block, and of those around it. -/
  indent : Nat
  outer : List Nat
  /-- Whether a key may start here. -/
  keyAllowed : Bool
  /-- The possible key of the innermost flow collection, and of those around it. -/
  possible : Option PossibleKey
  outerPossible : List (Option PossibleKey)

namespace Scan

/-- Whether a flow collection is open. -/
def inFlow (s : Scan) : Bool := !s.outerPossible.isEmpty

/-- The state with a token more. -/
def push (s : Scan) (t : Token) : Scan := { s with tokens := s.tokens.push t }

/-- The state after a token that is some characters long. -/
def pushOver (s : Scan) (t : Token) (n : Nat) : Scan :=
  { s.push t with cursor := s.cursor.advance n }

/-- Forgets the possible key, which must not have been required. -/
def dropKey (s : Scan) : Option Scan :=
  if s.possible.any (·.isRequired) then none else some { s with possible := none }

/-- Takes note that a key may start here. -/
def noteKey (s : Scan) : Option Scan :=
  if s.keyAllowed then do
    let s ← s.dropKey
    let k : PossibleKey :=
      ⟨!s.inFlow && s.indent = s.cursor.column + 1, s.tokens.size, s.cursor⟩
    return { s with possible := some k }
  else some s

/-- Opens a block at a column, if that is further in; its token goes to a position. -/
def openBlock (s : Scan) (column position : Nat) (t : Token) : Scan :=
  if !s.inFlow && s.indent < column + 1 then
    { s with
      indent := column + 1
      outer := s.indent :: s.outer
      tokens := s.tokens.insertIdxIfInBounds position t }
  else s

/-- Closes blocks until the innermost is not further in than `indent`. -/
def closeBlocks (indent : Nat) : List Nat → Scan → Scan
  | outer, s =>
    if s.inFlow || s.indent ≤ indent then s
    else
      match outer with
      | [] => s
      | i :: is => closeBlocks indent is { s.push .blockEnd with indent := i, outer := is }

/-- Closes all blocks that a column is too far out for. -/
def closeTo (s : Scan) (indent : Nat) : Scan := closeBlocks indent s.outer s

/-- Passes over blanks, comments and line breaks. -/
def skipBlanks : Nat → Scan → Scan
  | 0, s => s
  | fuel + 1, s =>
    let c := s.cursor.skipWhile fun x => x = ' ' || ((s.inFlow || !s.keyAllowed) && x = '\t')
    let c := if c.at? '#' then c.skipLine else c
    if c.peek?.any isBreak then
      skipBlanks fuel { s with
        cursor := c.lineBreak.2, keyAllowed := s.keyAllowed || !s.inFlow }
    else { s with cursor := c }

/-- Forgets a possible key if it is too far behind to be one. -/
def dropStale (s : Scan) (k : Option PossibleKey) : Option (Option PossibleKey) :=
  match k with
  | none => some none
  | some k =>
    if k.place.line < s.cursor.line || k.place.index + 1024 < s.cursor.index then
      if k.isRequired then none else some none
    else some (some k)

/-- Forgets all possible keys that are too far behind. -/
def dropAllStale (s : Scan) : Option Scan := do
  return { s with
    possible := ← s.dropStale s.possible
    outerPossible := ← s.outerPossible.mapM s.dropStale }

/-! ## Single tokens -/

/-- The start of a flow collection. -/
def openFlow (s : Scan) (t : Token) : Option Scan := do
  let s ← s.noteKey
  return { s.pushOver t 1 with
    keyAllowed := true, possible := none, outerPossible := s.possible :: s.outerPossible }

/-- The end of a flow collection. -/
def closeFlow (s : Scan) (t : Token) : Option Scan := do
  let s ← s.dropKey
  let (possible, outer) := match s.outerPossible with
    | [] => (none, [])
    | k :: ks => (k, ks)
  return { s.pushOver t 1 with
    keyAllowed := false, possible := possible, outerPossible := outer }

/-- The dash of an item of a block sequence. -/
def entry (s : Scan) : Option Scan := do
  if !s.inFlow && !s.keyAllowed then failure
  let s := s.openBlock s.cursor.column s.tokens.size .blockSequence
  let s ← s.dropKey
  return { s.pushOver .blockEntry 1 with keyAllowed := true }

/-- The mark of a key that says so. -/
def explicitKey (s : Scan) : Option Scan := do
  if !s.inFlow && !s.keyAllowed then failure
  let s := s.openBlock s.cursor.column s.tokens.size .blockMapping
  let s ← s.dropKey
  return { s.pushOver .key 1 with keyAllowed := !s.inFlow }

/-- The colon before a value. -/
def value (s : Scan) : Option Scan := do
  match s.possible with
  | some k =>
    let s := { s with tokens := s.tokens.insertIdxIfInBounds k.position .key, possible := none }
    let s := s.openBlock k.place.column k.position .blockMapping
    return { s.pushOver .value 1 with keyAllowed := false }
  | none =>
    if !s.inFlow && !s.keyAllowed then failure
    let s := s.openBlock s.cursor.column s.tokens.size .blockMapping
    return { s.pushOver .value 1 with keyAllowed := !s.inFlow }

/-- The characters of the names of anchors. -/
def isNameChar (x : Char) : Bool := x.isAlphanum || x = '_' || x = '-'

/-- An anchor or an alias. -/
def anchor (s : Scan) (make : String → Token) : Option Scan := do
  let s ← s.noteKey
  let c := s.cursor.advance 1
  let name := c.rest.takeWhile isNameChar
  let c := c.advance name.length
  let isOver := endsWord c.peek? ||
    c.peek?.any ['?', ':', ',', ']', '\x7d', '%', '@', '\x60'].contains
  if name.isEmpty || !isOver then failure
  return { s.push (make (String.ofList name)) with cursor := c, keyAllowed := false }

/-- The characters of tags. -/
def isTagChar (x : Char) : Bool :=
  isNameChar x || [';', '/', '?', ':', '@', '&', '=', '+', '$', '.', '!', '~', '*', '\'', '(', ')',
    '%'].contains x

/-- A tag. -/
def tag (s : Scan) : Option Scan := do
  let s ← s.noteKey
  let c := s.cursor
  let (handle, suffix, c) ←
    if c.peekAfter? 1 = some '<' then
      let c := c.advance 2
      let uri := c.rest.takeWhile fun x => isTagChar x || [',', '[', ']'].contains x
      let c := c.advance uri.length
      if uri.isEmpty || !c.at? '>' then failure
      pure ("", uri, c.advance 1)
    else
      let name := (c.rest.drop 1).takeWhile isNameChar
      let (handle, c) :=
        if c.peekAfter? (name.length + 1) = some '!' then
          ("!" ++ String.ofList name ++ "!", c.advance (name.length + 2))
        else ("!", c.advance 1)
      let suffix := c.rest.takeWhile isTagChar
      if suffix.isEmpty && handle ≠ "!" then failure
      pure (handle, suffix, c.advance suffix.length)
  if !endsWord c.peek? && !(s.inFlow && c.at? ',') then failure
  return { s.push (.tag handle (String.ofList suffix)) with cursor := c, keyAllowed := false }

/-- A block scalar. -/
def blockScalar (s : Scan) : Option Scan := do
  let s ← s.dropKey
  let (text, c) ← block s.indent s.cursor
  return { s.push (.scalar false text) with cursor := c, keyAllowed := true }

/-- A quoted scalar. -/
def quotedScalar (s : Scan) (isSingle : Bool) : Option Scan := do
  let s ← s.noteKey
  let (text, c) ← quoted isSingle s.cursor
  return { s.push (.scalar false text) with cursor := c, keyAllowed := false }

/-- A plain scalar. -/
def plainScalar (s : Scan) : Option Scan := do
  let s ← s.noteKey
  let (text, broke, c) ← plain s.inFlow s.indent s.cursor
  return { s.push (.scalar true text) with cursor := c, keyAllowed := broke }

/-- A directive: the version of the language or a handle for tags. -/
def directive (s : Scan) : Option Scan := do
  let s ← (s.closeTo 0).dropKey
  let c := s.cursor.advance 1
  let line := c.rest.takeWhile fun x => !isBreak x
  let words := (String.ofList (line.map fun x => if x = '\t' then ' ' else x)).splitOn " "
  let words := (words.filter (· ≠ "")).takeWhile fun w => w.toList.head? ≠ some '#'
  let c := (c.advance line.length).lineBreak.2
  let t ← match words with
    | ["YAML", "1.1"] => pure (Token.directive true "")
    | ["YAML", "1.2"] => pure (Token.directive true "")
    | ["TAG", handle, _] =>
      let cs := handle.toList
      if cs.head? = some '!' && cs.getLast? = some '!' then pure (Token.directive false handle)
      else none
    | _ => none
  return { s.push t with cursor := c, keyAllowed := false }

/-- The mark that starts or ends a document. -/
def boundary (s : Scan) (t : Token) : Option Scan := do
  let s ← (s.closeTo 0).dropKey
  return { s.pushOver t 3 with keyAllowed := false }

/-- The characters that begin something else than a plain scalar. -/
def indicators : List Char :=
  [',', '[', ']', '\x7b', '\x7d', '#', '&', '*', '!', '|', '>', '\'', '"', '%', '@', '\x60']

/-- Whether a plain scalar may start with a character, given what follows it. -/
def startsPlain (inFlow : Bool) (x : Char) (after : Option Char) : Bool :=
  if endsWord (some x) then false
  else if x = '-' then !after.any isSpace
  else if x = '?' || x = ':' then !inFlow && !endsWord after
  else !indicators.contains x

/-- The state after the next token; nothing is left at the end. -/
def next (s : Scan) : Option Scan := do
  let c := s.cursor
  match c.peek? with
  | none => none
  | some x =>
    let after := c.peekAfter? 1
    let marks := s.inFlow || endsWord after
    if c.column = 0 && x = '%' then s.directive
    else if c.atMark ['-', '-', '-'] then s.boundary .documentStart
    else if c.atMark ['.', '.', '.'] then s.boundary .documentEnd
    else if x = '[' then s.openFlow .flowSequence
    else if x = '\x7b' then s.openFlow .flowMapping
    else if x = ']' then s.closeFlow .flowSequenceEnd
    else if x = '\x7d' then s.closeFlow .flowMappingEnd
    else if x = ',' then do
      let s ← s.dropKey
      return { s.pushOver .flowEntry 1 with keyAllowed := true }
    else if x = '-' && endsWord after then s.entry
    else if x = '?' && marks then s.explicitKey
    else if x = ':' && marks then s.value
    else if x = '*' then s.anchor .alias
    else if x = '&' then s.anchor .anchor
    else if x = '!' then s.tag
    else if (x = '|' || x = '>') && !s.inFlow then s.blockScalar
    else if x = '\'' then s.quotedScalar true
    else if x = '"' then s.quotedScalar false
    else if startsPlain s.inFlow x after then s.plainScalar
    else none

/-- All tokens from a place on. -/
def run : Nat → Scan → Option (List Token)
  | 0, _ => none
  | fuel + 1, s => do
    let s ← (skipBlanks (s.cursor.rest.length + 1) s).dropAllStale
    if s.cursor.peek?.isNone then
      let s ← (s.closeTo 0).dropKey
      return s.tokens.toList
    else run fuel (← (s.closeTo (s.cursor.column + 1)).next)

end Scan

/-- The tokens of a text. -/
def tokens? (s : String) : Option (List Token) :=
  let cs := match s.toList with
    | c :: r => if c.toNat = 0xFEFF then r else c :: r
    | [] => []
  if cs.all isPrintable then
    Scan.run (cs.length + 1) ⟨.start cs, #[], 0, [], true, none, []⟩
  else none

end SqlGate.Yaml
