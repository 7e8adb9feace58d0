import SqlGate.Text.Basic

/-!
# Shell scripts

Guardrails are often short shell scripts. A script is a row of pipelines, each run or not depending
on how the one before it came out; a pipeline is a row of commands, each reading what the one before
it wrote; a command is made of words, and a word of pieces that are put in when it is run.
-/

namespace SqlGate.Shell

/-- When a pipeline is run. -/
inductive Link where
  | always
  /-- After a success only. -/
  | ifSuccess
  /-- After a failure only. -/
  | ifFailure
  deriving Repr, DecidableEq

/-- Where the output or the errors of a command go instead. -/
inductive Redirect where
  | outputToNothing
  | errorsToNothing
  | outputToErrors
  | errorsToOutput
  | inputFromNothing
  deriving Repr, DecidableEq

mutual

/-- A piece of a word. What stands in quotes is not cut at blanks. -/
inductive Piece where
  | text (cs : List Char) (quoted : Bool)
  | value (name : String) (quoted : Bool)
  | output (script : Script) (quoted : Bool)
  | sum (expression : List Char)

/-- A word: its pieces. -/
inductive Word where
  | done
  | piece (p : Piece) (rest : Word)

/-- Words in a row. -/
inductive Words where
  | done
  | word (w : Word) (rest : Words)

/-- Settings of variables in a row. -/
inductive Settings where
  | done
  | set (name : String) (value : Word) (rest : Settings)

/-- A command. -/
inductive Command where
  | simple (settings : Settings) (words : Words) (redirects : List Redirect)
  | branch (condition yes no : Script)
  | group (body : Script)

/-- Commands, each of which reads what the one before it wrote. -/
inductive Pipeline where
  | last (c : Command)
  | into (c : Command) (rest : Pipeline)

/-- Pipelines in a row. -/
inductive Script where
  | done
  | run (link : Link) (negated : Bool) (p : Pipeline) (rest : Script)

end

/-- The word of pieces. -/
def Word.ofList : List Piece → Word
  | [] => .done
  | p :: ps => .piece p (ofList ps)

/-- The row of words. -/
def Words.ofList : List Word → Words
  | [] => .done
  | w :: ws => .word w (ofList ws)

/-- The row of settings. -/
def Settings.ofList : List (String × Word) → Settings
  | [] => .done
  | (name, w) :: rest => .set name w (ofList rest)

end SqlGate.Shell

/-!
## Reading shell scripts

`Script.ofString?` reads the part of the language that short scripts are written in: quotes,
variables, the output of a script and sums in words; settings, redirections, pipelines, lists and
branches. Anything else is no script.
-/

namespace SqlGate.Shell

/-- Reads something from the beginning of a text and gives what follows it. -/
abbrev Reads (α : Type) := List Char → Option (α × List Char)

/-- Whether a character ends a word. -/
def endsWord (c : Char) : Bool := " \t\n;&|<>()".toList.contains c

/-- Whether a character may stand in a name, not in the first place. -/
def isNameChar (c : Char) : Bool := c.isAlphanum || c = '_'

/-- A name, or one of the variables that have no name. -/
def name : Reads String
  | [] => none
  | c :: rest =>
    if "?$#!".toList.contains c then some (c.toString, rest)
    else if c.isDigit then some (c.toString, rest)
    else if isNameChar c then
      some (String.ofList ((c :: rest).takeWhile isNameChar), rest.dropWhile isNameChar)
    else none

/-- The text up to an end, which is left out. -/
def upTo (stop : List Char) : List Char → Option (List Char × List Char)
  | [] => none
  | c :: rest =>
    if stop.isPrefixOf (c :: rest) then some ([], (c :: rest).drop stop.length)
    else (upTo stop rest).map fun (s, r) => (c :: s, r)

/-- Blanks, and a comment after them. -/
def skipBlanks (cs : List Char) : List Char :=
  let rest := cs.dropWhile fun c => c = ' ' || c = '\t'
  match rest with
  | '#' :: r => r.dropWhile (· ≠ '\n')
  | _ => rest

/-- Blanks and ends of lines. -/
def skipLines (cs : List Char) : List Char :=
  cs.dropWhile fun c => c = ' ' || c = '\t' || c = '\n' || c = ';'

/-- A redirection at the beginning of a text. -/
def redirect? (cs : List Char) : Option (Redirect × List Char) :=
  let forms : List (String × Redirect) :=
    [("2>&1", .errorsToOutput), ("1>&2", .outputToErrors), (">&2", .outputToErrors),
     ("2>/dev/null", .errorsToNothing), ("2> /dev/null", .errorsToNothing),
     (">/dev/null", .outputToNothing), ("> /dev/null", .outputToNothing),
     ("1>/dev/null", .outputToNothing), ("</dev/null", .inputFromNothing),
     ("< /dev/null", .inputFromNothing)]
  forms.findSome? fun (form, r) =>
    if form.toList.isPrefixOf cs then some (r, cs.drop form.length) else none

/-- The words that may not begin a command. -/
def closers : List String := ["then", "else", "elif", "fi", "\x7d"]

/-- The word of plain characters at the beginning of a text. -/
def plainWord (cs : List Char) : String := String.ofList (cs.takeWhile fun c => !endsWord c)

/-- A plain word that must come next. -/
def keyword (w : String) (cs : List Char) : Option (List Char) :=
  let cs := skipLines cs
  if plainWord cs = w then some (cs.drop w.length) else none

/-- The name that a word sets, if it sets one: the name and the text after the sign. -/
def setting? (cs : List Char) : Option (String × List Char) :=
  let n := cs.takeWhile isNameChar
  match n, cs.drop n.length with
  | c :: _, '=' :: rest => if c.isDigit then none else some (String.ofList n, rest)
  | _, _ => none

mutual

/-- What follows a dollar sign. -/
def dollar (quoted : Bool) : Nat → Reads Piece
  | 0, _ => none
  | fuel + 1, cs =>
    match cs with
    | '(' :: '(' :: rest => do
      let (e, rest) ← upTo "))".toList rest
      return (.sum e, rest)
    | '(' :: rest => do
      let (s, rest) ← script fuel rest
      match skipLines rest with
      | ')' :: rest => return (.output s quoted, rest)
      | _ => none
    | '\x7b' :: rest => do
      let (n, rest) ← upTo ['\x7d'] rest
      return (.value (String.ofList n) quoted, rest)
    | _ =>
      match name cs with
      | some (n, rest) => some (.value n quoted, rest)
      | none => some (.text ['$'] quoted, cs)

/-- The pieces inside double quotes, up to the closing one. -/
def quotedPieces : Nat → Reads (List Piece)
  | 0, _ => none
  | fuel + 1, cs =>
    match cs with
    | [] => none
    | '"' :: rest => some ([], rest)
    | '\\' :: c :: rest => do
      let (ps, after) ← quotedPieces fuel rest
      if c = '\n' then return (ps, after)
      else if c = '"' || c = '\\' || c = '$' || c = '\x60' then
        return (.text [c] true :: ps, after)
      else return (.text ['\\', c] true :: ps, after)
    | '$' :: rest => do
      let (p, rest) ← dollar true fuel rest
      let (ps, rest) ← quotedPieces fuel rest
      return (p :: ps, rest)
    | c :: rest => do
      let (ps, rest) ← quotedPieces fuel rest
      return (.text [c] true :: ps, rest)

/-- The pieces of a word, to its end. -/
def pieces : Nat → Reads (List Piece)
  | 0, _ => none
  | fuel + 1, cs =>
    match cs with
    | [] => some ([], [])
    | '\'' :: rest => do
      let (s, rest) ← upTo ['\''] rest
      let (ps, rest) ← pieces fuel rest
      return (.text s true :: ps, rest)
    | '"' :: rest => do
      let (inner, rest) ← quotedPieces fuel rest
      let (ps, rest) ← pieces fuel rest
      return (.text [] true :: inner ++ ps, rest)
    | '\\' :: c :: rest => do
      let (ps, rest) ← pieces fuel rest
      return (if c = '\n' then ps else .text [c] true :: ps, rest)
    | '$' :: rest => do
      let (p, rest) ← dollar false fuel rest
      let (ps, rest) ← pieces fuel rest
      return (p :: ps, rest)
    | c :: rest =>
      if endsWord c then some ([], c :: rest)
      else do
        let (ps, rest) ← pieces fuel rest
        return (.text [c] false :: ps, rest)

/-- The settings, words and redirections of a simple command. -/
def simple : Nat → List (String × Word) → List Word → List Redirect → Reads Command
  | 0, _, _, _, _ => none
  | fuel + 1, settings, words, redirects, cs =>
    let cs := skipBlanks cs
    match redirect? cs with
    | some (r, rest) => simple fuel settings words (redirects ++ [r]) rest
    | none =>
      match cs with
      | [] => some (.simple (.ofList settings) (.ofList words) redirects, [])
      | c :: _ =>
        if endsWord c then
          if c = '<' || c = '>' || c = '(' then none
          else some (.simple (.ofList settings) (.ofList words) redirects, cs)
        else
          match words, setting? cs with
          | [], some (n, rest) => do
            let (ps, rest) ← pieces fuel rest
            simple fuel (settings ++ [(n, .ofList ps)]) [] redirects rest
          | _, _ => do
            let (ps, rest) ← pieces fuel cs
            simple fuel settings (words ++ [.ofList ps]) redirects rest

/-- The rest of a branch after its condition's word. -/
def branch : Nat → Reads Command
  | 0, _ => none
  | fuel + 1, cs => do
    let (condition, rest) ← script fuel cs
    let rest ← keyword "then" rest
    let (yes, rest) ← script fuel rest
    match keyword "fi" rest, keyword "else" rest, keyword "elif" rest with
    | some rest, _, _ => return (.branch condition yes .done, rest)
    | _, some rest, _ => do
      let (no, rest) ← script fuel rest
      return (.branch condition yes no, ← keyword "fi" rest)
    | _, _, some rest => do
      let (c, rest) ← branch fuel rest
      return (.branch condition yes (.run .always false (.last c) .done), rest)
    | _, _, _ => none

/-- A command. -/
def command : Nat → Reads Command
  | 0, _ => none
  | fuel + 1, cs =>
    let cs := skipBlanks cs
    match plainWord cs with
    | "if" => branch fuel (cs.drop 2)
    | "\x7b" => do
      let (s, rest) ← script fuel (cs.drop 1)
      return (.group s, ← keyword "\x7d" rest)
    | _ => simple fuel [] [] [] cs

/-- A row of commands. -/
def pipeline : Nat → Reads Pipeline
  | 0, _ => none
  | fuel + 1, cs => do
    let (c, rest) ← command fuel cs
    match skipBlanks rest with
    | '|' :: '|' :: _ => return (.last c, rest)
    | '|' :: rest => do
      let (p, rest) ← pipeline fuel (skipLines rest)
      return (.into c p, rest)
    | _ => return (.last c, rest)

/-- Pipelines up to the end of the text or of what they stand in. -/
def scriptAfter (link : Link) : Nat → Reads Script
  | 0, _ => none
  | fuel + 1, cs => do
    let cs := skipLines (skipBlanks (skipLines cs))
    if cs.isEmpty || cs.head? = some ')' || closers.contains (plainWord cs) then
      if link = .always then return (.done, cs) else none
    else
      let negated := plainWord cs = "!"
      let (p, rest) ← pipeline fuel (if negated then cs.drop 1 else cs)
      match skipBlanks rest with
      | '&' :: '&' :: rest => do
        let (s, rest) ← scriptAfter .ifSuccess fuel rest
        return (.run link negated p s, rest)
      | '|' :: '|' :: rest => do
        let (s, rest) ← scriptAfter .ifFailure fuel rest
        return (.run link negated p s, rest)
      | '&' :: _ => none
      | rest => do
        let (s, rest) ← scriptAfter .always fuel rest
        return (.run link negated p s, rest)

/-- Pipelines, the first of which is always run. -/
def script (fuel : Nat) : Reads Script := fun cs =>
  match fuel with
  | 0 => none
  | fuel + 1 => scriptAfter .always fuel cs

end

/-- The script of a text, if it is one. -/
def Script.ofString? (s : String) : Option Script := do
  let cs := s.toList
  let (script, rest) ← script (4 * cs.length + 8) cs
  if rest.isEmpty then return script else none

end SqlGate.Shell
