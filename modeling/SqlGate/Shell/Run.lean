import SqlGate.Guardrail.Process
import SqlGate.Shell.Program
import SqlGate.Shell.Reader

/-!
# Running scripts

A script is run on an input. What it writes, how long it takes and how it ends make the exit that
a guardrail decides by.
-/

namespace SqlGate.Shell

open Guardrail (ExitStatus)

/-- A script while it runs. -/
structure State where
  settings : List (String × String)
  input : List Char
  output : List Char
  errors : List Char
  millis : Nat
  status : Nat
  exit : Option ExitStatus

namespace State

/-- The value of a variable; there is none for one that was never set. -/
def value (s : State) (name : String) : String :=
  if name = "?" then Nat.repr s.status else (s.settings.lookup name).getD ""

/-- Sets a variable. -/
def set (s : State) (name value : String) : State :=
  { s with settings := (name, value) :: s.settings }

/-- Takes in what a program did. -/
def take (s : State) (e : Effect) : State :=
  let s := { s with
    input := e.inputLeft
    output := s.output ++ e.output
    errors := s.errors ++ e.errors
    millis := s.millis + e.millis
    status := e.status
    exit := s.exit <|> e.exits }
  e.sets.foldl (fun s kv => s.set kv.1 kv.2) s

end State

/-! ## Sums -/

/-- A number or a variable at the beginning of a sum. -/
def operand (s : State) (cs : List Char) : Int × List Char :=
  let cs := cs.dropWhile fun c => c = ' ' || c = '$'
  let word := cs.takeWhile isNameChar
  let value := match (String.ofList word).toInt? with
    | some n => n
    | none => (number? (s.value (String.ofList word))).getD 0
  (value, (cs.drop word.length).dropWhile (· = ' '))

/-- A sum, read from left to right. -/
def sumFrom (s : State) : Nat → Int → List Char → Int
  | 0, acc, _ => acc
  | fuel + 1, acc, cs =>
    match cs with
    | '+' :: rest => let (n, r) := operand s rest; sumFrom s fuel (acc + n) r
    | '-' :: rest => let (n, r) := operand s rest; sumFrom s fuel (acc - n) r
    | '*' :: rest => let (n, r) := operand s rest; sumFrom s fuel (acc * n) r
    | '/' :: rest => let (n, r) := operand s rest; sumFrom s fuel (acc.tdiv n) r
    | '%' :: rest => let (n, r) := operand s rest; sumFrom s fuel (acc.tmod n) r
    | _ => acc

/-- The value of a sum. -/
def sum (s : State) (cs : List Char) : Int :=
  let (n, rest) := operand s cs
  sumFrom s cs.length n rest

/-! ## Words -/

/-- A character of a word, and whether the word may be cut there. -/
abbrev Marked := Char × Bool

/-- The parts of a word that may be cut at blanks. -/
def fields (cs : List Marked) (hasQuotes : Bool) : List String :=
  let parts := (Text.cut (fun (c, cut) => cut && Text.isBlank c) cs).filter (!·.isEmpty)
  if parts.isEmpty && hasQuotes then [""] else parts.map fun p => String.ofList (p.map (·.1))

/-- The output of a script as a piece of a word: the ends of lines at its end are left out. -/
def withoutLastLines (cs : List Char) : List Char :=
  (cs.reverse.dropWhile (· = '\n')).reverse

/-- Where output and errors go. -/
inductive Sink where
  | output
  | errors
  | nothing
  deriving DecidableEq

/-- Where output and errors go after redirections. -/
def sinks : List Redirect → Sink × Sink → Sink × Sink
  | [], now => now
  | .outputToNothing :: rs, (_, e) => sinks rs (.nothing, e)
  | .errorsToNothing :: rs, (o, _) => sinks rs (o, .nothing)
  | .outputToErrors :: rs, (_, e) => sinks rs (e, e)
  | .errorsToOutput :: rs, (o, _) => sinks rs (o, o)
  | .inputFromNothing :: rs, now => sinks rs now

/-- What a program did, with its output and errors where they go. -/
def Effect.redirected (e : Effect) (rs : List Redirect) : Effect :=
  let (o, err) := sinks rs (.output, .errors)
  let into (sink : Sink) : List Char :=
    (if o = sink then e.output else []) ++ (if err = sink then e.errors else [])
  { e with output := into .output, errors := into .errors }

/-- The effect of a program in a script, where some end the script. -/
def call (s : State) (name : String) (args : List String) (input : List Char) : Effect :=
  match name with
  | "exit" =>
    let n := (args.head?.bind String.toNat?).getD s.status % 256
    { Effect.ofStatus n input with exits := some (.code n) }
  | "kill" =>
    let n := match args.head? with
      | some "-9" => 9
      | some "-KILL" => 9
      | some "-INT" => 2
      | some "-2" => 2
      | some "-HUP" => 1
      | some "-1" => 1
      | some "-6" => 6
      | some "-ABRT" => 6
      | _ => 15
    { Effect.ofStatus 0 input with exits := some (.signal n) }
  | _ =>
    let base := ((name.splitOn "/").getLast?).getD name
    let known := if name.toList.contains '/' then
        if name = "/bin/" ++ base || name = "/usr/bin/" ++ base then
          program? base args input else none
      else program? name args input
    known.getD (.complaint ("/bin/sh: 1: " ++ name ++ ": not found") 127 input)

/-! ## Commands -/

mutual

/-- Puts in a piece of a word. -/
def Piece.expand (s : State) : Piece → List Marked × State
  | .text cs _ => (cs.map fun c => (c, false), s)
  | .value name quoted => ((s.value name).toList.map fun c => (c, !quoted), s)
  | .output script quoted =>
    let after := script.eval { s with output := [], exit := none }
    let shown := withoutLastLines after.output
    (shown.map fun c => (c, !quoted),
      { s with
        input := after.input
        errors := after.errors
        millis := after.millis
        status := match after.exit with
          | some (.code n) => n
          | some (.signal n) => 128 + n
          | none => after.status })
  | .sum e => ((toString (sum s e)).toList.map fun c => (c, false), s)

/-- Puts in the pieces of a word; also says whether some of it stood in quotes. -/
def Word.expand (s : State) : Word → List Marked × Bool × State
  | .done => ([], false, s)
  | .piece p rest =>
    let quoted := match p with
      | .text _ q => q
      | .value _ q => q
      | .output _ q => q
      | .sum _ => false
    let (cs, s) := p.expand s
    let (more, quotes, s) := rest.expand s
    (cs ++ more, quoted || quotes, s)

/-- Puts in the words of a command. -/
def Words.expand (s : State) : Words → List String × State
  | .done => ([], s)
  | .word w rest =>
    let (cs, quotes, s) := w.expand s
    let (more, s) := rest.expand s
    (fields cs quotes ++ more, s)

/-- Sets variables. -/
def Settings.eval (s : State) : Settings → State
  | .done => s
  | .set name w rest =>
    let (cs, _, s) := w.expand s
    rest.eval (s.set name (String.ofList (cs.map (·.1))))

/-- Runs a command. -/
def Command.eval (s : State) : Command → State
  | .simple settings words redirects =>
    let s := settings.eval { s with status := 0 }
    let (args, s) := words.expand s
    match args with
    | [] => s
    | name :: args =>
      let input := if redirects.contains .inputFromNothing then [] else s.input
      s.take ((call s name args input).redirected redirects)
  | .branch condition yes no =>
    let s := condition.eval s
    if s.exit.isSome then s
    else if s.status = 0 then yes.eval s
    else no.eval { s with status := 0 }
  | .group body => body.eval s

/-- Runs a row of commands, each but the last in a shell of its own. -/
def Pipeline.eval (s : State) : Pipeline → State
  | .last c => c.eval s
  | .into c rest =>
    let first := c.eval { s with output := [] }
    let after := rest.eval
      { s with input := first.output, output := [], errors := first.errors, millis := first.millis }
    { s with
      input := first.input
      output := s.output ++ after.output
      errors := after.errors
      millis := after.millis
      status := match after.exit with
        | some (.code n) => n
        | some (.signal n) => 128 + n
        | none => after.status }

/-- Runs pipelines in a row, until one of them ends the script. -/
def Script.eval (s : State) : Script → State
  | .done => s
  | .run link negated p rest =>
    if s.exit.isSome then s
    else
      let wanted := match link with
        | .always => true
        | .ifSuccess => s.status = 0
        | .ifFailure => s.status ≠ 0
      let s := if wanted then
          let s := p.eval s
          if negated then { s with status := if s.status = 0 then 1 else 0 } else s
        else s
      rest.eval s

end

/-! ## Programs that are started -/

/-- The bytes of a text. -/
def bytesOf (cs : List Char) : List UInt8 := Text.Utf8.encode (String.ofList cs)

/-- The exit of a script. -/
def exitOf (text : String) (input : List Char) : Guardrail.Launch :=
  match Script.ofString? text with
  | some script =>
    let s := script.eval ⟨[], input, [], [], 0, 0, none⟩
    .runs (some s.millis) ⟨s.exit.getD (.code s.status), bytesOf s.output, bytesOf s.errors⟩
  | none => .runs (some 0) ⟨.code 2, [], bytesOf "/bin/sh: 1: Syntax error".toList⟩

/-- The exit of a small program. -/
def exitOfEffect (e : Effect) : Guardrail.Launch :=
  .runs (some e.millis) ⟨.code e.status, bytesOf e.output, bytesOf e.errors⟩

/-- The directories in which programs are looked for. -/
def directories : List String := ["/bin/", "/usr/bin/"]

/-- The name under which a command is known, if it can be started. -/
def knownName (command : String) : Option String :=
  if command.toList.contains '/' then
    directories.findSome? fun d =>
      if command.startsWith d then some (command.drop d.length).toString else none
  else some command

/-- How programs behave: shells run scripts, small programs do what they do, and nothing else can be
started. -/
def programs : Guardrail.Programs := fun command args payload =>
  let input := payload.toList
  let missing : Guardrail.Launch := .notStarted "No such file or directory (os error 2)"
  match knownName command with
  | none => missing
  | some name =>
    if name = "sh" || name = "bash" || name = "dash" then
      match args with
      | "-c" :: script :: _ => exitOf script input
      | [] => exitOf payload []
      | _ => missing
    else if name = "echo" then exitOfEffect (.ofOutput (echo args false) input)
    else
      match program? name args input with
      | some e => exitOfEffect e
      | none => missing

end SqlGate.Shell
