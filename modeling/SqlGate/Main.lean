import SqlGate.CommandLine
import SqlGate.Shell.Run

/-!
# The program

Reads the arguments, the file and the variables of the environment that a command needs, and carries
it out. A service is fed what comes in and writes its responses as they are due.
-/

namespace SqlGate

/-- The values of some variables of the environment. -/
def readVariables (names : List String) : IO Environment := do
  let found ← names.filterMapM fun n => do return (← IO.getEnv n).map (n, ·)
  return fun n => found.lookup n

/-- The bytes of a file, if it can be read. -/
def readBytes (path : String) : IO (Option (List UInt8)) := do
  try
    return some (← IO.FS.readBinFile path).toList
  catch _ => return none

/-- The variables that a file names. -/
def namedVariables (file : Option (List UInt8)) : List String :=
  match Config.load file with
  | .ok c => c.database.urlVariable.toList ++ c.database.passwordVariable.toList
  | .error _ => []

/-- Writes responses. -/
def writeResponses (rs : List Rpc.Response) : IO Unit := do
  let output ← IO.getStdout
  for r in rs do
    output.putStrLn r.line
  output.flush

/-- Serves a client until its input ends. -/
partial def serveInput (input : IO.FS.Stream) (s : Service) : IO UInt32 := do
  let bytes ← input.read 4096
  let s ← if bytes.isEmpty then pure s else do
    let (s, responses) := s.feed bytes.toList
    writeResponses responses
    pure s
  if bytes.isEmpty then
    let (_, responses, finished) := s.finish
    writeResponses responses
    match finished with
    | .failed why =>
      IO.eprint (CommandLine.report (Service.failure why).2 [why.message])
      return 1
    | _ => return 0
  else serveInput input s

end SqlGate

open SqlGate CommandLine in
/-- The program. -/
def main (args : List String) : IO UInt32 := do
  let action ← match Command.ofArguments (← readVariables [configVariable]) args with
    | .error why => pure (.finish (misuse why))
    | .ok command => do
      let file ← match command.config? with
        | some path => readBytes path
        | none => pure none
      let env ← readVariables (namedVariables file)
      pure (command.run Postgres.Network.unreachable Shell.programs env file)
  match action with
  | .finish o =>
    IO.print o.output
    IO.eprint o.errors
    return UInt32.ofNat o.exit
  | .serve s => serveInput (← IO.getStdin) s
