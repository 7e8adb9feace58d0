import SqlGate.Text.Bytes

/-!
# Reading scalars of YAML

## Places in a YAML text

The unread characters of a text with where they stand. Lines end with a line feed, a carriage return
or both, or with one of three characters of Unicode; the first four ways read as a line feed.
-/

namespace SqlGate.Yaml

/-- Whether a character ends a line. -/
def isBreak (c : Char) : Bool :=
  c = '\n' || c = '\r' || c.toNat = 0x85 || c.toNat = 0x2028 || c.toNat = 0x2029

/-- Whether a character separates words. -/
def isSpace (c : Char) : Bool := c = ' ' || c = '\t'

/-- Whether a word ends before what comes next. -/
def endsWord : Option Char → Bool
  | none => true
  | some c => isSpace c || isBreak c

/-- Whether a line ends before what comes next. -/
def endsLine : Option Char → Bool
  | none => true
  | some c => isBreak c

/-- Whether a character may stand in a text at all. -/
def isPrintable (c : Char) : Bool :=
  let n := c.toNat
  n = 9 || n = 10 || n = 13 || (0x20 ≤ n && n ≤ 0x7E) || n = 0x85 ||
    (0xA0 ≤ n && n ≤ 0xFFFD && n ≠ 0xFEFF) || 0x10000 ≤ n

/-- A place in a text. -/
structure Cursor where
  rest : List Char
  index : Nat
  line : Nat
  column : Nat

namespace Cursor

/-- The start of a text. -/
def start (cs : List Char) : Cursor := ⟨cs, 0, 0, 0⟩

/-- The next character. -/
def peek? (c : Cursor) : Option Char := c.rest.head?

/-- The character `n` after the next one. -/
def peekAfter? (c : Cursor) (n : Nat) : Option Char := (c.rest.drop n).head?

/-- Whether a character comes next. -/
def at? (c : Cursor) (x : Char) : Bool := c.peek? = some x

/-- The place after some characters of a line. -/
def advance (c : Cursor) (n : Nat) : Cursor :=
  { c with rest := c.rest.drop n, index := c.index + n, column := c.column + n }

/-- What a line break reads as, and the place after it. -/
def lineBreak (c : Cursor) : List Char × Cursor :=
  match c.rest with
  | '\r' :: '\n' :: r => (['\n'], ⟨r, c.index + 2, c.line + 1, 0⟩)
  | x :: r =>
    (if x.toNat = 0x2028 || x.toNat = 0x2029 then [x] else ['\n'], ⟨r, c.index + 1, c.line + 1, 0⟩)
  | [] => ([], c)

/-- The place of the first character without a property on the line. -/
def skipWhile (c : Cursor) (p : Char → Bool) : Cursor := c.advance (c.rest.takeWhile p).length

/-- The place where the line ends. -/
def skipLine (c : Cursor) : Cursor := c.skipWhile fun x => !isBreak x

/-- Whether a mark of the bounds of a document stands here. -/
def atMark (c : Cursor) (mark : List Char) : Bool :=
  c.column = 0 && mark.isPrefixOf c.rest && endsWord (c.peekAfter? mark.length)

/-- Whether a document starts or ends here. -/
def atBoundary (c : Cursor) : Bool := c.atMark ['-', '-', '-'] || c.atMark ['.', '.', '.']

end Cursor

end SqlGate.Yaml

/-!
## Scalars of YAML

The five ways to write a text: plain, in single or double quotes, and as a block that keeps its
lines or folds them. Each reader starts where the scalar does and gives its text and the place after
it.
-/

namespace SqlGate.Yaml

/-- A stretch of blanks and line breaks between words. -/
structure Gap where
  blanks : List Char
  breaks : List (List Char)

/-- What a stretch folds to: blanks without a line break stay, one line break is a blank, and of
several the first is dropped. -/
def Gap.text (g : Gap) : List Char :=
  match g.breaks with
  | [] => g.blanks
  | ['\n'] :: [] => [' ']
  | ['\n'] :: bs => bs.flatten
  | b :: bs => b ++ bs.flatten

/-- Reads a stretch of blanks and line breaks that goes on. In a plain scalar no tab may stand where
a line has to be indented. -/
def gap (indent : Nat) : Nat → Gap → Cursor → Option (Gap × Cursor)
  | 0, _, _ => none
  | fuel + 1, g, c =>
    match c.peek? with
    | none => some (g, c)
    | some x =>
      if isSpace x then
        if g.breaks.isEmpty then gap indent fuel { g with blanks := g.blanks ++ [x] } (c.advance 1)
        else if x = '\t' && c.column < indent then none
        else gap indent fuel g (c.advance 1)
      else if isBreak x then
        let (b, c) := c.lineBreak
        gap indent fuel ⟨[], g.breaks ++ [b]⟩ c
      else some (g, c)

/-! ## Plain scalars -/

/-- The marks of flow collections. -/
def isFlowMark (x : Char) : Bool := [',', '[', ']', '\x7b', '\x7d'].contains x

/-- The characters of a plain scalar up to a blank or where it ends, in reverse; also whether it
ends there. -/
def plainWord (inFlow : Bool) : Nat → List Char → Cursor → Option (List Char × Bool × Cursor)
  | 0, _, _ => none
  | fuel + 1, word, c =>
    match c.peek? with
    | none => some (word, true, c)
    | some x =>
      let after := c.peekAfter? 1
      if endsWord (some x) then some (word, false, c)
      else if inFlow && x = ':' && after.any fun y => isFlowMark y || y = '?' then none
      else if (x = ':' && endsWord after) || (inFlow && isFlowMark x) then some (word, true, c)
      else plainWord inFlow fuel (x :: word) (c.advance 1)

/-- The words of a plain scalar from a place on, behind a stretch of blanks, and whether the last
stretch ended a line. -/
def plainWords (inFlow : Bool) (indent : Nat) : Nat → Gap → Cursor →
    Option (List Char × Bool × Cursor)
  | 0, _, _ => none
  | fuel + 1, g, c =>
    let atEnd := some ([], !g.breaks.isEmpty, c)
    if c.atBoundary || c.at? '#' then atEnd
    else do
      let (word, isOver, c') ← plainWord inFlow (c.rest.length + 1) [] c
      if isOver && word.isEmpty then atEnd
      else
        let text := if word.isEmpty then [] else g.text ++ word.reverse
        let g := if word.isEmpty then g else ⟨[], []⟩
        if isOver then return (text, false, c')
        else
          let (g, c'') ← gap indent (c'.rest.length + 1) g c'
          if !inFlow && c''.column < indent then return (text, !g.breaks.isEmpty, c'')
          else
            let (more, broke, c) ← plainWords inFlow indent fuel g c''
            return (text ++ more, broke, c)

/-- A plain scalar, and whether a line ended after it. -/
def plain (inFlow : Bool) (indent : Nat) (c : Cursor) : Option (String × Bool × Cursor) := do
  let (cs, broke, c) ← plainWords inFlow indent (c.rest.length + 1) ⟨[], []⟩ c
  return (String.ofList cs, broke, c)

/-! ## Quoted scalars -/

/-- The character that an escape of one letter stands for. -/
def simpleEscape? : Char → Option Char
  | '0' => some '\x00'
  | 'a' => some '\x07'
  | 'b' => some '\x08'
  | 't' => some '\t'
  | '\t' => some '\t'
  | 'n' => some '\n'
  | 'v' => some '\x0b'
  | 'f' => some '\x0c'
  | 'r' => some '\r'
  | 'e' => some '\x1b'
  | ' ' => some ' '
  | '"' => some '"'
  | '/' => some '/'
  | '\\' => some '\\'
  | 'N' => some (Char.ofNat 0x85)
  | '_' => some (Char.ofNat 0xA0)
  | 'L' => some (Char.ofNat 0x2028)
  | 'P' => some (Char.ofNat 0x2029)
  | _ => none

/-- How many digits an escape of a code point has. -/
def escapeWidth? : Char → Option Nat
  | 'x' => some 2
  | 'u' => some 4
  | 'U' => some 8
  | _ => none

/-- An escape, the backslash of which is next. -/
def escape (c : Cursor) : Option (Char × Cursor) := do
  let x ← c.peekAfter? 1
  match simpleEscape? x with
  | some y => return (y, c.advance 2)
  | none =>
    let width ← escapeWidth? x
    let ds := (c.rest.drop 2).take width
    if ds.length < width then failure
    let n ← ds.foldlM (fun n d => (Text.Hex.digit? d).map (n * 16 + ·)) 0
    if n.isValidChar then return (Char.ofNat n, c.advance (2 + width)) else failure

/-- The characters of a quoted scalar from a place on, behind a stretch of blanks. -/
def quotedRest (isSingle : Bool) : Nat → Gap → Cursor → Option (List Char × Cursor)
  | 0, _, _ => none
  | fuel + 1, g, c =>
    match c.peek? with
    | none => none
    | some x =>
      if c.atBoundary then none
      else if endsWord (some x) then do
        let (g, c) ← gap 0 (c.rest.length + 1) g c
        quotedRest isSingle fuel g c
      else
        let go (text : List Char) (g : Gap) (c : Cursor) : Option (List Char × Cursor) := do
          let (more, c) ← quotedRest isSingle fuel g c
          return (text ++ more, c)
        let quote := if isSingle then '\'' else '"'
        if isSingle && x = quote && c.peekAfter? 1 = some quote then
          go (g.text ++ [quote]) ⟨[], []⟩ (c.advance 2)
        else if x = quote then some (g.text, c.advance 1)
        else if !isSingle && x = '\\' then
          if (c.peekAfter? 1).any isBreak then
            let (_, c) := (c.advance 1).lineBreak
            go g.text ⟨[], [[]]⟩ c
          else do
            let (y, c) ← escape c
            go (g.text ++ [y]) ⟨[], []⟩ c
        else go (g.text ++ [x]) ⟨[], []⟩ (c.advance 1)

/-- A quoted scalar, the opening quote of which is next. -/
def quoted (isSingle : Bool) (c : Cursor) : Option (String × Cursor) := do
  let (cs, c) ← quotedRest isSingle (2 * c.rest.length + 2) ⟨[], []⟩ (c.advance 1)
  return (String.ofList cs, c)

/-! ## Block scalars -/

/-- What becomes of the line breaks at the end of a block: all but the first go, all go, or all
stay. -/
inductive Chomp where
  | clip
  | strip
  | keep
  deriving DecidableEq

/-- The sign of how to treat the last line breaks. -/
def Chomp.ofSign? : Char → Option Chomp
  | '-' => some strip
  | '+' => some keep
  | _ => none

/-- The head of a block, behind its mark: how its end is treated and how far it is indented, if that
is said. -/
def blockHead (c : Cursor) : Option ((Chomp × Option Nat) × Cursor) :=
  let digit (c : Cursor) : Option (Option Nat × Cursor) :=
    match c.peek? with
    | some x =>
      if x = '0' then none
      else if x.isDigit then some (some (x.toNat - 48), c.advance 1)
      else some (none, c)
    | none => some (none, c)
  match c.peek?.bind Chomp.ofSign? with
  | some chomp => do
    let (n, c) ← digit (c.advance 1)
    return ((chomp, n), c)
  | none => do
    let (n, c) ← digit c
    match n, c.peek?.bind Chomp.ofSign? with
    | some _, some chomp => return ((chomp, n), c.advance 1)
    | _, _ => return ((.clip, n), c)

/-- The empty lines before a line of a block; gives their breaks and the greatest indentation met.
An indentation that is not known yet is found so. -/
def blockBreaks (indent : Option Nat) : Nat → List (List Char) → Nat → Cursor →
    Option ((List (List Char) × Nat) × Cursor)
  | 0, _, _, _ => none
  | fuel + 1, breaks, deepest, c =>
    let blanks := (c.rest.takeWhile (· = ' ')).length
    let c := c.advance (match indent with
      | none => blanks
      | some n => min blanks (n - c.column))
    let deepest := max deepest c.column
    let isShort := indent.all (c.column < ·)
    match c.peek? with
    | none => some ((breaks, deepest), c)
    | some x =>
      if isShort && x = '\t' then none
      else if isBreak x then
        let (b, c) := c.lineBreak
        blockBreaks indent fuel (breaks ++ [b]) deepest c
      else some ((breaks, deepest), c)

/-- The lines of a block from a place on. `lead` is the break that ended the line before, `blank`
whether that line started with a blank, `trail` the empty lines since. -/
def blockLines (isLiteral : Bool) (chomp : Chomp) (indent : Nat) : Nat → List Char → Bool →
    List (List Char) → Cursor → Option (List Char × Cursor)
  | 0, _, _, _, _ => none
  | fuel + 1, lead, blank, trail, c =>
    if c.column = indent && c.peek?.isSome then do
      let isBlank := c.peek?.any isSpace
      let before :=
        if !isLiteral && lead = ['\n'] && !blank && !isBlank then
          if trail.isEmpty then [' '] else trail.flatten
        else lead ++ trail.flatten
      let line := c.rest.takeWhile fun x => !isBreak x
      let (lead, c) := (c.advance line.length).lineBreak
      let ((trail, _), c) ← blockBreaks (some indent) (c.rest.length + 1) [] 0 c
      let (more, c) ← blockLines isLiteral chomp indent fuel lead isBlank trail c
      return (before ++ line ++ more, c)
    else
      let last := if chomp = .strip then [] else lead
      some (last ++ (if chomp = .keep then trail.flatten else []), c)

/-- A block scalar, the mark of which is next; `parent` is one more than the indentation around. -/
def block (parent : Nat) (c : Cursor) : Option (String × Cursor) := do
  let isLiteral := c.at? '|'
  let ((chomp, step), c) ← blockHead (c.advance 1)
  let c := c.skipWhile isSpace
  let c := if c.at? '#' then c.skipLine else c
  if !endsLine c.peek? then failure
  let (_, c) := c.lineBreak
  let known := step.map fun n => if parent = 0 then n else parent - 1 + n
  let ((trail, deepest), c) ← blockBreaks known (c.rest.length + 1) [] 0 c
  let indent := known.getD (max deepest (max parent 1))
  let (cs, c) ← blockLines isLiteral chomp indent (c.rest.length + 2) [] false trail c
  return (String.ofList cs, c)

end SqlGate.Yaml
