import SqlGate.Guardrail.Fault
import SqlGate.Pattern
import SqlGate.Text.Basic

/-!
# Small programs

The programs that short scripts call: they copy, print, count, compare, search and wait. A program
is given arguments and an input, and says what it wrote, how it ended, how long that took and what
it left of the input.
-/

namespace SqlGate.Shell

/-- What a program did. -/
structure Effect where
  output : List Char
  errors : List Char
  status : Nat
  inputLeft : List Char
  millis : Nat
  /-- How the whole script ends, if the program ends it. -/
  exits : Option Guardrail.ExitStatus
  /-- Variables that the program sets. -/
  sets : List (String × String)

namespace Effect

/-- Nothing but a status. -/
def ofStatus (status : Nat) (input : List Char) : Effect := ⟨[], [], status, input, 0, none, []⟩

/-- A success with an output. -/
def ofOutput (output input : List Char) : Effect := ⟨output, [], 0, input, 0, none, []⟩

/-- A failure with a complaint. -/
def complaint (message : String) (status : Nat) (input : List Char) : Effect :=
  ⟨[], (message ++ "\n").toList, status, input, 0, none, []⟩

end Effect

/-- The lines of a text, the ends of lines left out. -/
def linesOf (cs : List Char) : List (List Char) :=
  let lines := Text.cut (· = '\n') cs
  if lines.getLast? = some [] then lines.dropLast else lines

/-- Lines with an end each. -/
def ofLines (ls : List (List Char)) : List Char := ls.flatMap (· ++ ['\n'])

/-! ## Printing -/

/-- The character of a letter after a backslash. -/
def escapeOf : Char → Option Char
  | 'n' => some '\n'
  | 't' => some '\t'
  | 'r' => some '\r'
  | '\\' => some '\\'
  | 'a' => some '\x07'
  | 'b' => some '\x08'
  | 'f' => some '\x0c'
  | 'v' => some '\x0b'
  | _ => none

/-- A text with its escapes replaced. -/
def unescape : List Char → List Char
  | '\\' :: c :: rest =>
    match escapeOf c with
    | some d => d :: unescape rest
    | none => '\\' :: c :: unescape rest
  | c :: rest => c :: unescape rest
  | [] => []

/-- Arguments with blanks between them. -/
def joined (args : List String) : List Char := (" ".intercalate args).toList

/-- Prints arguments on a line. -/
def echo (args : List String) (escapes : Bool) : List Char :=
  let (newline, args) := match args with
    | "-n" :: rest => (false, rest)
    | _ => (true, args)
  let s := joined args
  (if escapes then unescape s else s) ++ (if newline then ['\n'] else [])

/-- A form with arguments put in, and the arguments that are left. -/
def fill : List Char → List String → List Char × List String
  | '%' :: '%' :: rest, args =>
    let (s, left) := fill rest args
    ('%' :: s, left)
  | '%' :: c :: rest, args =>
    if c = 's' || c = 'd' || c = 'b' then
      let (s, left) := fill rest (args.drop 1)
      let arg := (args.head?.getD (if c = 'd' then "0" else "")).toList
      ((if c = 'b' then unescape arg else arg) ++ s, left)
    else
      let (s, left) := fill rest args
      ('%' :: c :: s, left)
  | '\\' :: '"' :: rest, args =>
    let (s, left) := fill rest args
    ('"' :: s, left)
  | '\\' :: c :: rest, args =>
    let (s, left) := fill rest args
    (unescape ['\\', c] ++ s, left)
  | c :: rest, args =>
    let (s, left) := fill rest args
    (c :: s, left)
  | [], args => ([], args)

/-- Prints a form, again and again while there are arguments left and it takes some. -/
def printf (form : List Char) : Nat → List String → List Char
  | 0, _ => []
  | fuel + 1, args =>
    let (s, left) := fill form args
    if left.isEmpty || left.length = args.length then s else s ++ printf form fuel left

/-! ## Comparing -/

/-- Whether a comparison of numbers holds. -/
def compareNumbers (op : String) (a b : Int) : Option Bool :=
  match op with
  | "-eq" => some (a = b)
  | "-ne" => some (a ≠ b)
  | "-lt" => some (a < b)
  | "-le" => some (a ≤ b)
  | "-gt" => some (b < a)
  | "-ge" => some (b ≤ a)
  | _ => none

/-- A number with blanks around it. -/
def number? (s : String) : Option Int := (String.ofList (Text.trim s.toList)).toInt?

/-- Whether a condition holds, if it is one. -/
def holds? : List String → Option Bool
  | [] => some false
  | "!" :: rest => (holds? rest).map (!·)
  | [s] => some (!s.isEmpty)
  | ["-n", s] => some (!s.isEmpty)
  | ["-z", s] => some s.isEmpty
  | [a, "=", b] => some (a = b)
  | [a, "==", b] => some (a = b)
  | [a, "!=", b] => some (a ≠ b)
  | [a, op, b] => do compareNumbers op (← number? a) (← number? b)
  | _ => none

/-- The status of a condition. -/
def conditionStatus (args : List String) : Nat :=
  match holds? args with
  | some true => 0
  | some false => 1
  | none => 2

/-! ## Searching -/

/-- Options of one letter each at the beginning of arguments, and the other arguments. -/
def options : List String → List Char × List String
  | [] => ([], [])
  | a :: rest =>
    match a.toList with
    | '-' :: c :: cs =>
      if a = "--" then ([], rest)
      else
        let (os, args) := options rest
        (c :: cs ++ os, args)
    | _ => ([], a :: rest)

/-- The signs that stand for themselves in a basic pattern. -/
def isPlainInBasic (c : Char) : Bool := "+?|()\x7b\x7d".toList.contains c

/-- The pattern that searching programs read an argument as. -/
def searchPattern (os : List Char) (s : String) : Option Pattern :=
  let quoted (cs : List Char) : List Char := cs.flatMap fun c =>
    if "\\.+*?()|[]\x7b\x7d^$".toList.contains c then ['\\', c] else [c]
  let basic (cs : List Char) : List Char := cs.flatMap fun c =>
    if isPlainInBasic c then ['\\', c] else [c]
  let body :=
    if os.contains 'F' then quoted s.toList
    else if os.contains 'E' then s.toList
    else basic s.toList
  Pattern.ofString? ((if os.contains 'i' then "(?i)" else "") ++ String.ofList body)

/-- Searches the lines of an input. -/
def grep (args : List String) (input : List Char) : Effect :=
  match options args with
  | (os, [s]) =>
    match searchPattern os s with
    | some p =>
      let found := (linesOf input).filter fun l =>
        p.isMatch (String.ofList l) != os.contains 'v'
      let output :=
        if os.contains 'q' then []
        else if os.contains 'c' then ofLines [(Nat.repr found.length).toList]
        else ofLines found
      { Effect.ofOutput output [] with status := if found.isEmpty then 1 else 0 }
    | none => .complaint "grep: Invalid regular expression" 2 []
  | _ => .complaint "Usage: grep [OPTION]... PATTERNS [FILE]..." 2 input

/-- Counts the lines, words and bytes of an input. -/
def wc (args : List String) (input : List Char) : Effect :=
  let bytes := input.foldl (fun n c => n + c.utf8Size) 0
  let count := match (options args).1 with
    | ['c'] => bytes
    | ['m'] => input.length
    | ['w'] => ((Text.cut Text.isBlank input).filter (!·.isEmpty)).length
    | _ => input.count '\n'
  .ofOutput (ofLines [(Nat.repr count).toList]) []

/-- The beginning of an input: lines, or characters. -/
def head (args : List String) (input : List Char) : Effect :=
  match args with
  | ["-c", n] => .ofOutput (input.take (n.toNat?.getD 0)) []
  | ["-n", n] => .ofOutput (ofLines ((linesOf input).take (n.toNat?.getD 0))) []
  | _ => .ofOutput (ofLines ((linesOf input).take 10)) []

/-- The characters that a set of them stands for. -/
def range : List Char → List Char
  | a :: '-' :: b :: rest =>
    (List.range (b.toNat + 1 - a.toNat)).map (fun k => Char.ofNat (a.toNat + k)) ++ range rest
  | c :: rest => c :: range rest
  | [] => []

/-- Puts characters in the places of others, or leaves them out. -/
def translate (args : List String) (input : List Char) : Effect :=
  match args with
  | ["-d", cs] =>
    let gone := range (unescape cs.toList)
    .ofOutput (input.filter fun c => !gone.contains c) []
  | [old, new] =>
    let table := (range (unescape old.toList)).zip (range (unescape new.toList))
    .ofOutput (input.map fun c => (table.lookup c).getD c) []
  | _ => .complaint "tr: missing operand" 1 input

/-- The milliseconds of a number of seconds. -/
def sleepMillis (s : String) : Option Nat :=
  match s.splitOn "." with
  | [n] => n.toNat?.map (· * 1000)
  | [n, f] => do
    let digits := (f ++ "000").toList.take 3
    let whole ← if n.isEmpty then some 0 else n.toNat?
    return whole * 1000 + (← (String.ofList digits).toNat?)
  | _ => none

/-! ## All of them -/

/-- What a program does, if there is one of the name. -/
def program? (name : String) (args : List String) (input : List Char) : Option Effect :=
  match name with
  | ":" => some (.ofStatus 0 input)
  | "true" => some (.ofStatus 0 input)
  | "false" => some (.ofStatus 1 input)
  | "cat" => if args.isEmpty || args = ["-"] then some (.ofOutput input []) else
      some (.complaint ("cat: " ++ args.headD "" ++ ": No such file or directory") 1 input)
  | "echo" => some (.ofOutput (echo args true) input)
  | "printf" =>
    match args with
    | form :: rest => some (.ofOutput (printf form.toList (rest.length + 1) rest) input)
    | [] => some (.complaint "printf: usage: printf format [arg ...]" 2 input)
  | "test" => some (.ofStatus (conditionStatus args) input)
  | "[" => some (.ofStatus (if args.getLast? = some "]" then conditionStatus args.dropLast else 2)
      input)
  | "grep" => some (grep args input)
  | "wc" => some (wc args input)
  | "head" => some (head args input)
  | "tr" => some (translate args input)
  | "sleep" => some { Effect.ofStatus 0 input with
      millis := ((args.map fun s => (sleepMillis s).getD 0).foldl (· + ·) 0) }
  | "touch" => some (.ofStatus 0 input)
  | "read" =>
    let line := (linesOf input).headD []
    let names := args.filter fun s => s ≠ "-r"
    some { Effect.ofStatus (if input.isEmpty then 1 else 0) (input.drop (line.length + 1)) with
      sets := (names.head?.map fun n => (n, String.ofList (Text.trim line))).toList }
  | _ => none

end SqlGate.Shell
