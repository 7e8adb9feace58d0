import SqlGate.Config.Database

/-!
# Arguments of the command line

The first argument that is no option names a command; options may stand anywhere, with their values
behind an equals sign or as the next argument, and all that follows `--` is no option. Each option
may be given once. Without `--config`, a variable of the environment names the configuration, or it
is a file of a fixed name.
-/

namespace SqlGate.CommandLine

/-- What the command line asks for. -/
inductive Command where
  | version
  | help
  | serve (config : String)
  | check (config sql : String)
  | validate (config : String)
  deriving Repr, DecidableEq

/-- Why a command line asks for nothing. -/
inductive Misuse where
  | noCommand
  | unknownCommand (name : String)
  | unexpected (argument : String)
  | noValue (option : String)
  | repeated (option : String)
  | missing (argument : String)
  deriving Repr, DecidableEq

/-- The wording of a misuse. -/
def Misuse.message : Misuse → String
  | noCommand => "a command is required"
  | unknownCommand name => "unrecognized command '" ++ name ++ "'"
  | unexpected a => "unexpected argument '" ++ a ++ "' found"
  | noValue o => "a value is required for '" ++ o ++ "' but none was supplied"
  | repeated o => "the argument '" ++ o ++ "' cannot be used multiple times"
  | missing a => "the argument '" ++ a ++ "' was not provided"

/-- The variable that names the configuration. -/
def configVariable : String := "SQLWARD_CONFIG"

/-- The name of the configuration if nothing else is said. -/
def defaultConfig : String := "sqlward.yaml"

/-- What was found in the arguments so far. -/
structure Draft where
  config : Option String
  logLevel : Option String
  words : List String

/-- An option that takes a value. -/
inductive Valued where
  | config
  | logLevel
  deriving Repr, DecidableEq

/-- An argument as it stands. -/
inductive Argument where
  | word (s : String)
  | terminator
  | version
  | help
  | option (which : Valued) (value : Option String)
  | unknown (s : String)

/-- The option that a name stands for; the configuration is an option of commands. -/
def option? (inCommand : Bool) : String → Option Valued
  | "--config" => if inCommand then some .config else none
  | "--log-level" => some .logLevel
  | _ => none

/-- The value that is joined to a short option. -/
def joined : List Char → Option String
  | [] => none
  | '=' :: v => some (String.ofList v)
  | v => some (String.ofList v)

/-- Reads one argument. -/
def Argument.of (inCommand : Bool) (s : String) : Argument :=
  match s.toList with
  | ['-', '-'] => .terminator
  | '-' :: '-' :: _ =>
    let name := s.toList.takeWhile (· ≠ '=')
    let value := (s.toList.drop name.length).tail
    match option? inCommand (String.ofList name) with
    | some o => .option o (if name.length < s.length then some (String.ofList value) else none)
    | none =>
      if s = "--help" then .help
      else if s = "--version" && !inCommand then .version
      else .unknown s
  | '-' :: 'c' :: v => if inCommand then .option .config (joined v) else .unknown s
  | ['-', 'h'] => .help
  | ['-', 'V'] => if inCommand then .unknown s else .version
  | ['-'] => .word s
  | '-' :: _ => .unknown s
  | _ => .word s

/-- The written name of an option. -/
def Valued.text : Valued → String
  | config => "--config <CONFIG>"
  | logLevel => "--log-level <LOG_LEVEL>"

/-- Gives an option its value. The name of a file is not empty. -/
def Draft.set (d : Draft) (o : Valued) (value : String) : Except Misuse Draft :=
  match o with
  | .config =>
    if d.config.isSome then .error (.repeated o.text)
    else if value.isEmpty then .error (.noValue o.text)
    else .ok { d with config := some value }
  | .logLevel =>
    if d.logLevel.isSome then .error (.repeated o.text)
    else .ok { d with logLevel := some value }

/-- The command of what was found. -/
def Draft.command (d : Draft) (env : Environment) : Except Misuse Command :=
  let config := ((d.config <|> env configVariable)).getD defaultConfig
  match d.words with
  | [] => .error .noCommand
  | ["serve"] => .ok (.serve config)
  | ["validate"] => .ok (.validate config)
  | ["check", sql] => .ok (.check config sql)
  | ["check"] => .error (.missing "<SQL>")
  | "serve" :: a :: _ => .error (.unexpected a)
  | "validate" :: a :: _ => .error (.unexpected a)
  | "check" :: _ :: a :: _ => .error (.unexpected a)
  | name :: _ => .error (.unknownCommand name)

/-- Reads arguments into a draft. -/
def read (env : Environment) : Draft → List String → Except Misuse Command
  | d, [] => d.command env
  | d, a :: rest =>
    match Argument.of (!d.words.isEmpty) a with
    | .word s =>
      if d.words.isEmpty && s = "help" then .ok .help
      else read env { d with words := d.words ++ [s] } rest
    | .terminator =>
      if d.words.isEmpty then .error (.unexpected (rest.headD a))
      else Draft.command { d with words := d.words ++ rest } env
    | .version => .ok .version
    | .help => .ok .help
    | .unknown s => .error (.unexpected s)
    | .option o (some v) =>
      match d.set o v with
      | .ok d => read env d rest
      | .error why => .error why
    | .option o none =>
      match rest with
      | [] => .error (.noValue o.text)
      | v :: rest =>
        match Argument.of (!d.words.isEmpty) v with
        | .word v =>
          match d.set o v with
          | .ok d => read env d rest
          | .error why => .error why
        | _ => .error (.noValue o.text)

/-- What the arguments of a command line ask for. -/
def Command.ofArguments (env : Environment) (args : List String) : Except Misuse Command :=
  read env ⟨none, none, []⟩ args

/-- The file that a command reads. -/
def Command.config? : Command → Option String
  | version => none
  | help => none
  | serve config => some config
  | check config _ => some config
  | validate config => some config

end SqlGate.CommandLine
