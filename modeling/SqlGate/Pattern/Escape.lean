import SqlGate.Pattern.Syntax

/-!
# Escapes

What a backslash with the characters after it stands for: a character, a set or a test.
-/

namespace SqlGate.Pattern

open SqlGate.Text Reader

/-- What an escape stands for. -/
inductive Escape where
  /-- A character; one that is written as two hexadecimal digits may stand for a byte. -/
  | char (c : Char) (isByte : Bool)
  | set (s : CharSet)
  | look (l : Look)

/-- A set or its complement, where the flags allow it. -/
def classOf (f : Flags) (isNegated : Bool) (s : CharSet) : Reader CharSet :=
  f.admit? (if isNegated then s.complement f.top else s)

/-- The characters that may stand behind a backslash for themselves. -/
def isEscapable (c : Char) : Bool := c.toNat < 0x80 && !c.isAlphanum && c ≠ '<' && c ≠ '>'

/-- The character with the code point that some digits write. -/
def scalar? (ds : List Char) : Option Char := do
  let n ← CharSet.hexOf? ds
  if n.isValidChar then some (Char.ofNat n) else none

/-- Some digits, with what means nothing after each of them. -/
def digits : Nat → Reader (List Char)
  | 0 => return []
  | n + 1 => do
    let d ← nextSkip
    if (Hex.digit? d).isNone then failure
    return d :: (← digits n)

/-- The characters up to a closing brace, which is taken too, without those that mean nothing. -/
def braced : Nat → Reader (List Char)
  | 0 => failure
  | n + 1 => do
    skip
    let c ← next
    if c = '\x7d' then return [] else return c :: (← braced n)

/-- The rest of an escape that writes a code point with so many digits, or in braces. -/
def codePoint (width : Nat) : Reader Escape := do
  skip
  if (← peek?) = some '\x7b' then
    let _ ← next
    return .char (← scalar? (← bounded braced)) false
  else return .char (← scalar? (← digits width)) (width = 2)

/-- The rest of an escape that names a set. -/
def namedSet (isNegated : Bool) : Reader Escape := do
  let f := (← get).flags
  skip
  let c ← next
  let (s, isNegated) ←
    if c = '\x7b' then do
      let name ← bounded braced
      let before := name.takeWhile fun c => c ≠ '=' && c ≠ ':'
      let after := name.drop (before.length + 1)
      if before.length = name.length then
        pure (← CharSet.named? (String.ofList name), isNegated)
      else if before.getLast? = some '!' && name[before.length]? = some '=' then
        let property := String.ofList before.dropLast
        pure (← CharSet.valued? property (String.ofList after), !isNegated)
      else pure (← CharSet.valued? (String.ofList before) (String.ofList after), isNegated)
    else if c = '\\' then failure
    else do
      let s ← CharSet.named? (String.singleton c)
      skip
      pure (s, isNegated)
  if !f.unicode then failure
  return .set (← classOf f isNegated (f.fold s))

/-- A digit, a blank or a character of words, by its letter. -/
def kindOf (f : Flags) (letter : Char) : CharSet :=
  if letter = 'w' then f.word
  else if letter = 'd' then
    if f.unicode then Property.digits else .ofRanges [(0x30, 0x39)]
  else if f.unicode then Property.blanks
  else .ofRanges [(9, 13), (0x20, 0x20)]

/-- The test at the ends of words that a name in braces stands for, if there is one. -/
def boundaryName : Reader Look := do
  let word := (← get).flags.word
  let isLetter (c : Char) := c.isAlpha || c = '-'
  if (← peek?) ≠ some '\x7b' then return .wordBoundary word
  else
    let u ← get
    let _ ← nextSkip
    match ← peek? with
    | none => failure
    | some c =>
      if !isLetter c then do
        set u
        return .wordBoundary word
      else
        let name ← bounded braced
        if name = "start".toList then return .wordStart word
        else if name = "end".toList then return .wordEnd word
        else if name = "start-half".toList then return .wordStartHalf word
        else if name = "end-half".toList then return .wordEndHalf word
        else failure

/-- An escape, the backslash of which is next. -/
def escape : Reader Escape := do
  let _ ← next
  let f := (← get).flags
  let c ← next
  match c with
  | 'x' => codePoint 2
  | 'u' => codePoint 4
  | 'U' => codePoint 8
  | 'p' => namedSet false
  | 'P' => namedSet true
  | 'd' | 's' | 'w' => return .set (kindOf f c)
  | 'D' | 'S' | 'W' => return .set (← classOf f true (kindOf f c.toLower))
  | 'a' => return .char '\x07' false
  | 'f' => return .char '\x0c' false
  | 't' => return .char '\t' false
  | 'n' => return .char '\n' false
  | 'r' => return .char '\r' false
  | 'v' => return .char '\x0b' false
  | 'A' => return .look .textStart
  | 'z' => return .look .textEnd
  | 'b' => return .look (← boundaryName)
  | 'B' => return .look (.noWordBoundary f.word)
  | '<' => return .look (.wordStart f.word)
  | '>' => return .look (.wordEnd f.word)
  | _ => if isEscapable c then return .char c false else failure

end SqlGate.Pattern
