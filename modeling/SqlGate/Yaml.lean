import SqlGate.Document
import SqlGate.Yaml.Token

/-!
# YAML documents

`Document.ofYaml?` gives the document of a YAML text, which must hold one at most; a text without
any stands for an empty scalar. An alias stands for what its anchor last marked.
-/

namespace SqlGate.Yaml

/-- The unread tokens, the documents that anchors mark, and the handles of tags. -/
structure Unread where
  rest : List Token
  anchors : List (String × Document)
  handles : List String

/-- Reads a part of a document. -/
abbrev Reader (α : Type) := StateT Unread Option α

namespace Reader

/-- The next token. -/
def peek? : Reader (Option Token) := do return (← get).rest.head?

/-- Takes the next token away. -/
def skip : Reader Unit := modify fun u => { u with rest := u.rest.drop 1 }

/-- Takes a token away, if it comes next. -/
def accept (t : Token) : Reader Bool := do
  if (← peek?) = some t then do
    skip
    return true
  else return false

/-- Takes a token that must come next. -/
def expect (t : Token) : Reader Unit := do if ← accept t then return () else failure

/-- Whether one of some tokens, or nothing at all, comes next. -/
def comesNext (ts : List Token) : Reader Bool := do
  return match ← peek? with
  | none => true
  | some t => ts.contains t

end Reader

open Reader

/-- The document of a scalar without text. -/
def emptyScalar : Document := .plain ""

/-- The tag that stands for nothing. -/
def nullTag : String × String := ("!!", "null")

/-- A scalar as a document. One that would stand for nothing does not if it has another tag. -/
def scalarOf (isPlain : Bool) (tag : Option (String × String)) (text : String) : Document :=
  if isPlain then
    if tag.any (· ≠ nullTag) && (Document.plain text).isNothing then .text text else .plain text
  else .text text

/-- The text of a document that is a key. -/
def keyText? : Document → Option String
  | .plain s => some s
  | .text s => some s
  | _ => none

/-- The mapping of some keys and values. -/
def mappingOf (pairs : List (Document × Document)) : Document :=
  match pairs.mapM fun (k, v) => (keyText? k).map fun s => (s, v) with
  | some ms => .record ms
  | none => .unnamed

/-- The anchor and the tag in front of a document, in either order. -/
def marks : Reader (Option String × Option (String × String)) := do
  let anchor : Reader (Option String) := do
    match ← peek? with
    | some (.anchor name) => do
      skip
      return some name
    | _ => return none
  let tag : Reader (Option (String × String)) := do
    match ← peek? with
    | some (.tag handle suffix) => do
      skip
      if ["", "!", "!!"].contains handle || (← get).handles.contains handle then
        return some (handle, suffix)
      else failure
    | _ => return none
  let a ← anchor
  let t ← tag
  if a.isSome then return (a, t) else return (← anchor, t)

/-- Remembers what an anchor marks. -/
def remember (anchor : Option String) (d : Document) : Reader Unit :=
  match anchor with
  | none => pure ()
  | some name => modify fun u => { u with anchors := (name, d) :: u.anchors }

mutual

/-- A document; `inBlock` says whether blocks may start here, `isIndentless` whether the items of a
sequence may stand without one. -/
def node (inBlock isIndentless : Bool) : Nat → Reader Document
  | 0 => failure
  | fuel + 1 => do
    match ← peek? with
    | some (.alias name) => do
      skip
      (← get).anchors.lookup name
    | _ =>
      let (anchor, tag) ← marks
      let collection (read : Reader Document) : Reader Document := do
        remember anchor .unnamed
        let d ← read
        remember anchor d
        return d
      match ← peek? with
      | some .blockEntry =>
        if isIndentless then collection do
          return .list false (← looseItems fuel)
        else bare anchor tag
      | some (.scalar isPlain text) => do
        skip
        let d := scalarOf isPlain tag text
        remember anchor d
        return d
      | some .flowSequence => collection do
        skip
        return .list false (← flowItems true fuel)
      | some .flowMapping => collection do
        skip
        return mappingOf (← flowPairs true fuel)
      | some .blockSequence =>
        if inBlock then collection do
          skip
          return .list false (← blockItems fuel)
        else bare anchor tag
      | some .blockMapping =>
        if inBlock then collection do
          skip
          return mappingOf (← blockPairs fuel)
        else bare anchor tag
      | _ => bare anchor tag
where
  /-- An anchor or a tag without a document behind it marks an empty scalar. -/
  bare (anchor : Option String) (tag : Option (String × String)) : Reader Document := do
    if anchor.isNone && tag.isNone then failure
    let d := scalarOf true tag ""
    remember anchor d
    return d

/-- A document, or an empty scalar where one of some tokens comes next. -/
def nodeUnless (stops : List Token) (inBlock isIndentless : Bool) : Nat → Reader Document
  | 0 => failure
  | fuel + 1 => do
    if ← comesNext stops then return emptyScalar else node inBlock isIndentless fuel

/-- The items of a block sequence and its end. -/
def blockItems : Nat → Reader (List Document)
  | 0 => failure
  | fuel + 1 => do
    if ← accept .blockEntry then do
      let d ← nodeUnless [.blockEntry, .blockEnd] true false fuel
      let ds ← blockItems fuel
      return d :: ds
    else do
      expect .blockEnd
      return []

/-- The items of a sequence that has no block of its own. -/
def looseItems : Nat → Reader (List Document)
  | 0 => failure
  | fuel + 1 => do
    if ← accept .blockEntry then do
      let d ← nodeUnless [.blockEntry, .key, .value, .blockEnd] true false fuel
      let ds ← looseItems fuel
      return d :: ds
    else return []

/-- The keys and values of a block mapping and its end. -/
def blockPairs : Nat → Reader (List (Document × Document))
  | 0 => failure
  | fuel + 1 => do
    if ← accept .key then do
      let stops : List Token := [.key, .value, .blockEnd]
      let k ← nodeUnless stops true true fuel
      let v ← if ← accept .value then nodeUnless stops true true fuel else pure emptyScalar
      let ps ← blockPairs fuel
      return (k, v) :: ps
    else do
      expect .blockEnd
      return []

/-- The items of a flow sequence and its end. -/
def flowItems (isFirst : Bool) : Nat → Reader (List Document)
  | 0 => failure
  | fuel + 1 => do
    if ← accept .flowSequenceEnd then return []
    if !isFirst then expect .flowEntry
    if ← accept .flowSequenceEnd then return []
    let d ←
      if ← accept .key then do
        let k ← nodeUnless [.value, .flowEntry, .flowSequenceEnd] false false fuel
        let v ←
          if ← accept .value then nodeUnless [.flowEntry, .flowSequenceEnd] false false fuel
          else pure emptyScalar
        pure (mappingOf [(k, v)])
      else node false false fuel
    let ds ← flowItems false fuel
    return d :: ds

/-- The keys and values of a flow mapping and its end. -/
def flowPairs (isFirst : Bool) : Nat → Reader (List (Document × Document))
  | 0 => failure
  | fuel + 1 => do
    if ← accept .flowMappingEnd then return []
    if !isFirst then expect .flowEntry
    if ← accept .flowMappingEnd then return []
    let (k, v) ←
      if ← accept .key then do
        let k ← nodeUnless [.value, .flowEntry, .flowMappingEnd] false false fuel
        let v ←
          if ← accept .value then nodeUnless [.flowEntry, .flowMappingEnd] false false fuel
          else pure emptyScalar
        pure (k, v)
      else do
        let k ← node false false fuel
        pure (k, emptyScalar)
    let ps ← flowPairs false fuel
    return (k, v) :: ps

end

/-- The directives in front of a document; the version may be told once. -/
def directives : Nat → Bool → Reader Bool
  | 0, _ => failure
  | fuel + 1, seenVersion => do
    match ← peek? with
    | some (.directive isVersion handle) => do
      skip
      if isVersion then
        if seenVersion then failure
      else
        if (← get).handles.contains handle then failure
        modify fun u => { u with handles := handle :: u.handles }
      let _ ← directives fuel (seenVersion || isVersion)
      return true
    | _ => return false

/-- Passes over the marks that end a document. -/
def skipEnds : Nat → Reader Unit
  | 0 => pure ()
  | fuel + 1 => do if ← accept .documentEnd then skipEnds fuel

/-- The only document of a stream. -/
def stream : Reader Document := do
  let fuel := 4 * (← get).rest.length + 4
  if (← peek?).isNone then return emptyScalar
  let isExplicit ← directives fuel false
  let isExplicit ← if isExplicit then do
      expect .documentStart
      pure true
    else accept .documentStart
  let d ←
    if isExplicit then
      nodeUnless [.documentStart, .documentEnd, .directive true ""] true false fuel
    else node true false fuel
  skipEnds fuel
  if (← peek?).isSome then failure
  return d

end SqlGate.Yaml

namespace SqlGate

/-- The document of a YAML text. -/
def Document.ofYaml? (s : String) : Option Document := do
  let (d, _) ← Yaml.stream.run ⟨← Yaml.tokens? s, [], []⟩
  return d

end SqlGate
