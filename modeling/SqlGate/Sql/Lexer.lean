import SqlGate.Sql.Token
import SqlGate.Text.Bytes

/-!
# Cutting a statement text into tokens

`tokenize` cuts a whole text or reports the first place where no token starts or where a quoted
text or comment does not end. Each scanner looks at the unread characters and says which token
starts there and how many characters it takes, so a run over the text is a fold that drops what
was taken. The `fuel` arguments are bounded by the length of the text.
-/

namespace SqlGate.Sql

/-- A text that cannot be cut: why, and how many characters on the place of the fault is. -/
structure LexFault where
  reason : String
  offset : Nat
  deriving Repr, DecidableEq

namespace Lexer

/-- A token and how many characters it takes. -/
abbrev Scan := Except LexFault (Token × Nat)

/-- The characters that start a word. -/
def startsWord (c : Char) : Bool := c.isAlpha || c = '_' || 127 < c.toNat

/-- The characters that go on a word. -/
def continuesWord (c : Char) : Bool := startsWord c || c.isDigit || c = '$'

/-- The characters that operators are made of. -/
def isOperatorChar (c : Char) : Bool := "+-*/<>=~!@#%^&|\x60?".toList.contains c

/-- The blanks that have no token of their own. -/
def isOtherBlank (c : Char) : Bool := c.toNat = 11 || c.toNat = 12

/-- A known symbol of `n` characters. -/
def known (s : String) : Scan := .ok (.symbol s, s.length)

/-- A symbol read so far, which the operator characters after it make one that is not known. -/
def operatorFrom (start : String) (fallback : Option Token) (rest : List Char) : Scan :=
  match rest.takeWhile isOperatorChar with
  | [] =>
    match fallback with
    | some t => .ok (t, start.length)
    | none => .error ⟨"Expected a valid binary operator after '" ++ start ++ "'", start.length⟩
  | more => .ok (.operator (start ++ String.ofList more), start.length + more.length)

/-- A symbol that more operator characters may extend. -/
def extensible (s : String) (rest : List Char) : Scan := operatorFrom s (some (.symbol s)) rest

/-- An operator start that is no symbol by itself. -/
def incomplete (s : String) (rest : List Char) : Scan := operatorFrom s none rest

/-- The content of a text up to its closing quote, a doubled quote standing for one; with the
number of characters up to and with the closing quote. -/
def quotedBody (q : Char) : List Char → Option (List Char × Nat)
  | [] => none
  | [c] => if c = q then some ([], 1) else none
  | c :: d :: r =>
    if c = q then
      if d = q then (quotedBody q r).map fun (s, n) => (q :: s, n + 2) else some ([], 1)
    else (quotedBody q (d :: r)).map fun (s, n) => (c :: s, n + 1)

/-- A quoted text whose quote stands after `skipped` characters. -/
def quotedText (how : Quoting) (skipped : Nat) (body : List Char) : Scan :=
  match quotedBody '\'' body with
  | some (s, n) => .ok (.quoted how (String.ofList s), skipped + 1 + n)
  | none => .error ⟨"Unterminated string literal", skipped⟩

/-- A word. -/
def word (cs : List Char) : Scan :=
  let name := cs.takeWhile continuesWord
  .ok (.word (String.ofList name) none, name.length)

/-- A word in double quotes, which stand after nothing. -/
def quotedWord (body : List Char) : Scan :=
  match quotedBody '"' body with
  | some (s, n) => .ok (.word (String.ofList s) (some '"'), 1 + n)
  | none => .error ⟨"Expected close delimiter '\"' before EOF.", 0⟩

/-- The number of characters of some digits in a base, at most `limit`, and their value. -/
def digitsIn (base limit : Nat) (cs : List Char) : Nat × Nat :=
  let run := (cs.take limit).takeWhile fun c =>
    match Text.Hex.digit? c with
    | some d => d < base
    | none => false
  (run.length, run.foldl (fun n c => n * base + (Text.Hex.digit? c).getD 0) 0)

/-- The character with a code, when there is one. -/
def charOf? (n : Nat) : Option Char := if h : n.isValidChar then some (Char.ofNatAux n h) else none

/-- An escape after its backslash: the character, and how many characters it takes. The code zero
has no place in a text, and a byte stands for a character only below 128. -/
def escape (cs : List Char) : Option (Char × Nat) :=
  let byteChar (n : Nat) : Option Char :=
    if n % 256 ≤ 127 ∧ n % 256 ≠ 0 then charOf? (n % 256) else none
  let wide (size : Nat) (r : List Char) : Option (Char × Nat) :=
    let (n, v) := digitsIn 16 size r
    if n = size ∧ v ≠ 0 then (charOf? v).map (·, size + 1) else none
  match cs with
  | [] => none
  | c :: r =>
    if c = 'b' then some (Char.ofNat 8, 1)
    else if c = 'f' then some (Char.ofNat 12, 1)
    else if c = 'n' then some ('\n', 1)
    else if c = 'r' then some ('\r', 1)
    else if c = 't' then some ('\t', 1)
    else if c = 'u' then wide 4 r
    else if c = 'U' then wide 8 r
    else if c = 'x' then
      let (n, v) := digitsIn 16 2 r
      if n = 0 then some ('x', 1) else (byteChar v).map (·, n + 1)
    else if '0' ≤ c ∧ c ≤ '7' then
      let (n, v) := digitsIn 8 3 cs
      (byteChar v).map (·, n)
    else if c.toNat = 0 then none
    else some (c, 1)

/-- The content of a text with backslash escapes up to its closing quote. -/
def escapedBody : Nat → List Char → Option (List Char × Nat)
  | 0, _ => none
  | _, [] => none
  | fuel + 1, c :: r =>
    if c = '\'' then
      match r with
      | '\'' :: r => (escapedBody fuel r).map fun (s, n) => ('\'' :: s, n + 2)
      | _ => some ([], 1)
    else if c = '\\' then do
      let (x, k) ← escape r
      let (s, n) ← escapedBody fuel (r.drop k)
      return (x :: s, n + k + 1)
    else (escapedBody fuel r).map fun (s, n) => (c :: s, n + 1)

/-- The content of a text with code point escapes up to its closing quote; a fault counts the
characters before it. -/
def unicodeBody : Nat → Nat → List Char → Except LexFault (List Char × Nat)
  | 0, k, _ => .error ⟨"Unterminated unicode encoded string literal", k⟩
  | _, k, [] => .error ⟨"Unterminated unicode encoded string literal", k⟩
  | fuel + 1, k, c :: r =>
    let code (size : Nat) (skip : Nat) (r : List Char) : Except LexFault (List Char × Nat) :=
      let (n, v) := digitsIn 16 size r
      if n < size then
        .error ⟨match r.drop n with
          | [] => "Unexpected EOF while parsing hex digit in escaped unicode string."
          | x :: _ => "Invalid hex digit in escaped unicode string: " ++ String.ofList [x],
          k + skip + n⟩
      else
        match charOf? v with
        | none => .error ⟨"Invalid unicode character: " ++ Text.Hex.ofNat v, k + skip + n⟩
        | some x => do
          let (s, n) ← unicodeBody fuel (k + skip + size) (r.drop size)
          return (x :: s, n + skip + size)
    if c = '\'' then
      match r with
      | '\'' :: r => do
        let (s, n) ← unicodeBody fuel (k + 2) r
        return ('\'' :: s, n + 2)
      | _ => .ok ([], 1)
    else if c = '\\' then
      match r with
      | '\\' :: r => do
        let (s, n) ← unicodeBody fuel (k + 2) r
        return ('\\' :: s, n + 2)
      | '+' :: r => code 6 2 r
      | _ => code 4 1 r
    else do
      let (s, n) ← unicodeBody fuel (k + 1) r
      return (c :: s, n + 1)

/-- A run of digits, single underscores between digits being part of it. -/
def digitRun (isDigit : Char → Bool) : List Char → List Char
  | [] => []
  | [c] => if isDigit c then [c] else []
  | c :: d :: r =>
    if isDigit c ∨ (c = '_' ∧ (Text.Hex.digit? d).isSome) then c :: digitRun isDigit (d :: r)
    else []

/-- The exponent of a number, when a digit follows its letter and sign. -/
def exponentRun : List Char → List Char
  | e :: r =>
    if e = 'e' ∨ e = 'E' then
      let sign := match r with
        | s :: _ => if s = '+' ∨ s = '-' then [s] else []
        | [] => []
      match (r.drop sign.length).takeWhile Char.isDigit with
      | [] => []
      | ds => e :: sign ++ ds
    else []
  | [] => []

/-- A number, or the point that starts none. A point before an underscore ends the name of a
table, which has to stand before it. -/
def number (before : Token) (cs : List Char) : Scan :=
  match cs with
  | '.' :: '_' :: _ =>
    match before with
    | .word .. => known "."
    | _ => .error ⟨"Unexpected character '_'", 0⟩
  | _ =>
    let whole := digitRun Char.isDigit cs
    let rest := cs.drop whole.length
    match whole, rest with
    | ['0'], 'x' :: r =>
      let ds := digitRun (fun c => (Text.Hex.digit? c).isSome) r
      .ok (.quoted .hex (String.ofList ds), 2 + ds.length)
    | _, _ =>
      let point := if rest.head? = some '.' then ['.'] else []
      let rest := rest.drop point.length
      let fraction := digitRun Char.isDigit rest
      let mantissa := whole ++ point ++ fraction
      if mantissa = ['.'] then known "."
      else
        let rest := rest.drop fraction.length
        let exponent := exponentRun rest
        let rest := rest.drop exponent.length
        let long := if rest.head? = some 'L' then 1 else 0
        let ds := mantissa ++ exponent
        .ok (.number (String.ofList ds), ds.length + long)

/-- How many characters a comment takes after its start, comments inside it being counted. -/
def commentBody : Nat → List Char → Option Nat
  | _, [] => none
  | _, [_] => none
  | level, c :: d :: r =>
    if c = '/' ∧ d = '*' then (commentBody (level + 1) r).map (· + 2)
    else if c = '*' ∧ d = '/' then
      if level ≤ 1 then some 2 else (commentBody (level - 1) r).map (· + 2)
    else (commentBody level (d :: r)).map (· + 1)

/-- The content of a text between two pairs of dollar signs. A single dollar sign inside it stands
for itself. -/
def dollarBody : List Char → Option (List Char × Nat)
  | [] => none
  | [_] => none
  | c :: d :: r =>
    if c = '$' ∧ d = '$' then some ([], 2)
    else (dollarBody (d :: r)).map fun (s, n) => (c :: s, n + 1)

/-- The content of a text up to a closing tag. -/
def taggedBody (tag : List Char) : List Char → Option (List Char × Nat)
  | [] => none
  | c :: r =>
    if tag.isPrefixOf (c :: r) then some ([], tag.length)
    else (taggedBody tag r).map fun (s, n) => (c :: s, n + 1)

/-- The characters of the tag of a dollar quoted text. -/
def isTagChar (c : Char) : Bool := c.isAlphanum || c = '_' || 127 < c.toNat

/-- What a dollar sign starts: a quoted text, or a placeholder. -/
def dollar (rest : List Char) : Scan :=
  match rest with
  | '$' :: body =>
    match dollarBody body with
    | some (s, n) => .ok (.quoted (.dollar "") (String.ofList s), 2 + n)
    | none => .error ⟨"Unterminated dollar-quoted string", 2 + body.length⟩
  | _ =>
    let tag := rest.takeWhile isTagChar
    match rest.drop tag.length with
    | '$' :: body =>
      match taggedBody ('$' :: tag ++ ['$']) body with
      | some (s, n) =>
        .ok (.quoted (.dollar (String.ofList tag)) (String.ofList s), 2 + tag.length + n)
      | none =>
        .error ⟨"Unterminated dollar-quoted, expected $", 2 + tag.length + body.length⟩
    | _ => .ok (.placeholder (String.ofList ('$' :: tag)), 1 + tag.length)

/-- What a letter that may introduce a quoted text starts. -/
def introduced (c : Char) (rest : List Char) : Scan :=
  match c.toUpper, rest with
  | 'B', '\'' :: body => quotedText .bytes 1 body
  | 'B', '"' :: body =>
    match quotedBody '"' body with
    | some (s, n) => .ok (.quoted .bytes (String.ofList s), 2 + n)
    | none => .error ⟨"Unterminated string literal", 1⟩
  | 'N', '\'' :: body => quotedText .national 1 body
  | 'X', '\'' :: body => quotedText .hex 1 body
  | 'E', '\'' :: body =>
    match escapedBody (body.length + 1) body with
    | some (s, n) => .ok (.quoted .escaped (String.ofList s), 2 + n)
    | none => .error ⟨"Unterminated encoded string literal", 0⟩
  | 'U', '&' :: '\'' :: body => do
    let (s, n) ← unicodeBody (body.length + 1) 3 body
    return (.quoted .unicode (String.ofList s), 3 + n)
  | _, _ => word (c :: rest)

/-- What an operator character or punctuation mark starts, longest symbols first. -/
def symbol (c : Char) (rest : List Char) : Option Scan :=
  match c, rest with
  | '(', _ => some (known "(")
  | ')', _ => some (known ")")
  | ',', _ => some (known ",")
  | ';', _ => some (known ";")
  | '[', _ => some (known "[")
  | ']', _ => some (known "]")
  | '\x7b', _ => some (known "\x7b")
  | '\x7d', _ => some (known "\x7d")
  | '\\', _ => some (known "\\")
  | '+', _ => some (known "+")
  | '*', _ => some (known "*")
  | '/', '*' :: r =>
    match commentBody 1 r with
    | some n => some (.ok (.blank .comment, 2 + n))
    | none => some (.error ⟨"Unexpected EOF while in a multi-line comment", 2 + r.length⟩)
  | '/', _ => some (known "/")
  | '-', '-' :: r =>
    let body := r.takeWhile fun x => x ≠ '\n' ∧ x ≠ '\r'
    let final := if (r.drop body.length).isEmpty then 0 else 1
    some (.ok (.blank .comment, 2 + body.length + final))
  | '-', '>' :: '>' :: r => some (extensible "->>" r)
  | '-', '>' :: r => some (extensible "->" r)
  | '-', r => some (extensible "-" r)
  | '%', r =>
    match r with
    | x :: _ => if x.isWhitespace then some (known "%") else some (extensible "%" r)
    | [] => some (known "%")
  | '|', '/' :: r => some (extensible "|/" r)
  | '|', '|' :: '/' :: r => some (extensible "||/" r)
  | '|', '|' :: r => some (extensible "||" r)
  | '|', '&' :: '>' :: r => some (extensible "|&>" r)
  | '|', '&' :: r => some (incomplete "|&" r)
  | '|', '>' :: '>' :: r => some (extensible "|>>" r)
  | '|', '>' :: r => some (incomplete "|>" r)
  | '|', r => some (extensible "|" r)
  | '=', '>' :: _ => some (known "=>")
  | '=', '=' :: _ => some (known "==")
  | '=', _ => some (known "=")
  | '!', '=' :: _ => some (.ok (.symbol "<>", 2))
  | '!', '!' :: _ => some (known "!!")
  | '!', '~' :: '*' :: r => some (extensible "!~*" r)
  | '!', '~' :: '~' :: '*' :: r => some (extensible "!~~*" r)
  | '!', '~' :: '~' :: r => some (extensible "!~~" r)
  | '!', '~' :: r => some (extensible "!~" r)
  | '!', _ => some (known "!")
  | '<', '=' :: '>' :: r => some (extensible "<=>" r)
  | '<', '=' :: r => some (extensible "<=" r)
  | '<', '>' :: r => some (extensible "<>" r)
  | '<', '<' :: '|' :: r => some (extensible "<<|" r)
  | '<', '<' :: r => some (extensible "<<" r)
  | '<', '-' :: '>' :: r => some (extensible "<->" r)
  | '<', '-' :: r => some (incomplete "<-" r)
  | '<', '^' :: r => some (extensible "<^" r)
  | '<', '@' :: r => some (extensible "<@" r)
  | '<', r => some (extensible "<" r)
  | '>', '=' :: r => some (extensible ">=" r)
  | '>', '>' :: r => some (extensible ">>" r)
  | '>', '^' :: r => some (extensible ">^" r)
  | '>', r => some (extensible ">" r)
  | ':', ':' :: _ => some (known "::")
  | ':', '=' :: _ => some (known ":=")
  | ':', _ => some (known ":")
  | '&', '>' :: r => some (extensible "&>" r)
  | '&', '<' :: '|' :: r => some (extensible "&<|" r)
  | '&', '<' :: r => some (extensible "&<" r)
  | '&', '&' :: r => some (extensible "&&" r)
  | '&', r => some (extensible "&" r)
  | '^', '@' :: _ => some (known "^@")
  | '^', _ => some (known "^")
  | '~', '*' :: r => some (extensible "~*" r)
  | '~', '=' :: r => some (extensible "~=" r)
  | '~', '~' :: '*' :: r => some (extensible "~~*" r)
  | '~', '~' :: r => some (extensible "~~" r)
  | '~', r => some (extensible "~" r)
  | '#', '-' :: r => some (extensible "#-" r)
  | '#', '>' :: '>' :: r => some (extensible "#>>" r)
  | '#', '>' :: r => some (extensible "#>" r)
  | '#', ' ' :: _ => some (known "#")
  | '#', '#' :: r => some (extensible "##" r)
  | '#', r => some (extensible "#" r)
  | '@', '-' :: '@' :: r => some (extensible "@-@" r)
  | '@', '-' :: r => some (incomplete "@-" r)
  | '@', '>' :: r => some (extensible "@>" r)
  | '@', '?' :: r => some (extensible "@?" r)
  | '@', '@' :: ' ' :: _ => some (known "@@")
  | '@', '@' :: r => some (extensible "@@" r)
  | '@', ' ' :: _ => some (known "@")
  | '@', r => some (extensible "@" r)
  | '?', '|' :: '|' :: r => some (extensible "?||" r)
  | '?', '|' :: _ => some (known "?|")
  | '?', '&' :: _ => some (known "?&")
  | '?', '-' :: '|' :: r => some (extensible "?-|" r)
  | '?', '-' :: _ => some (known "?-")
  | '?', '#' :: r => some (extensible "?#" r)
  | '?', _ => some (known "?")
  | _, _ => none

/-- The token at the start of some characters, `before` being the one before it. -/
def scan (before : Token) (c : Char) (rest : List Char) : Scan :=
  if c = ' ' then .ok (.blank .space, 1)
  else if c = '\t' then .ok (.blank .tab, 1)
  else if c = '\n' then .ok (.blank .newline, 1)
  else if c = '\r' then .ok (.blank .newline, if rest.head? = some '\n' then 2 else 1)
  else if "bBnNxXeEuU".toList.contains c then introduced c rest
  else if c = '\'' then quotedText .plain 0 rest
  else if c = '"' then quotedWord rest
  else if c.isDigit ∨ c = '.' then number before (c :: rest)
  else if startsWord c then word (c :: rest)
  else if c = '$' then dollar rest
  else
    match symbol c rest with
    | some s => s
    | none => if isOtherBlank c then .ok (.blank .space, 1) else .ok (.stray c, 1)

/-- The place after some characters. -/
def advance (p : Place) (cs : List Char) : Place :=
  cs.foldl (fun p c => if c = '\n' then ⟨p.line + 1, 1⟩ else ⟨p.line, p.column + 1⟩) p

/-- The tokens of some characters, or a message with the place of the fault. -/
def tokensFrom : Nat → Token → Place → List Char → Except String (List Located)
  | 0, _, _, _ => .ok []
  | _, _, _, [] => .ok []
  | fuel + 1, before, place, c :: rest =>
    match scan before c rest with
    | .error f =>
      .error (f.reason ++ placeText (some (advance place ((c :: rest).take f.offset))))
    | .ok (t, n) => do
      let n := max n 1
      let after := (c :: rest).drop n
      let more ← tokensFrom fuel t (advance place ((c :: rest).take n)) after
      return ⟨t, place⟩ :: more

end Lexer

/-- The tokens of a text with its blanks, or why it has none. -/
def tokenize (s : String) : Except String (List Located) :=
  let cs := s.toList
  Lexer.tokensFrom cs.length .eof ⟨1, 1⟩ cs

end SqlGate.Sql
