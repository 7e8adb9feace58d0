import SqlGate.Config
import SqlGate.Text.Utf8
import SqlGate.Yaml

/-!
# Loading a configuration

A configuration is the bytes of a file, which hold a YAML text. What is loaded is also valid.
-/

namespace SqlGate.Config

/-- Why a file gives no configuration. -/
inductive LoadFault where
  | missingFile
  | notText
  /-- The text is no YAML, or no configuration. -/
  | notConfig
  | refused (f : Fault)
  deriving Repr, DecidableEq

/-- The configuration of a text. -/
def ofText (s : String) : Except LoadFault Config := do
  match (Document.ofYaml? s).map ofDocument with
  | some (.ok c) =>
    match c.validate with
    | .ok () => return c
    | .error f => throw (.refused f)
  | _ => throw .notConfig

/-- The configuration of a file's bytes, if there is the file. -/
def load (file : Option (List UInt8)) : Except LoadFault Config := do
  match file with
  | none => throw .missingFile
  | some bytes =>
    match Text.Utf8.decode? bytes with
    | none => throw .notText
    | some s => ofText s

end SqlGate.Config
