import SqlGate.Json.Typed
import SqlGate.Text.Utf8

/-!
# Decisions of guardrails

A guardrail accepts or rejects; it may put another text in the place of the one it was shown, one
for each phase, and may say why it rejects. `accept` is the one field that must be there.
-/

namespace SqlGate.Guardrail

/-- When a guardrail runs: on the statement, or on its result. -/
inductive Phase where
  | before
  | after
  deriving Repr, DecidableEq

/-- Whether the guardrails of a phase run inside a transaction. -/
def Phase.inTransaction : Phase → Bool
  | before => false
  | after => true

/-- The decision of a guardrail. -/
structure Response where
  accept : Bool
  modifiedQuery : Option String
  modifiedResult : Option String
  errorMessage : Option String
  deriving Repr, DecidableEq

namespace Response

/-- The text that replaces the one of a phase; an empty one does not count. -/
def replacement (r : Response) (phase : Phase) : Option String :=
  let text := match phase with
    | .before => r.modifiedQuery
    | .after => r.modifiedResult
  text.filter fun s => !s.isEmpty

/-- A decision as a value. -/
def toJson (r : Response) : Json :=
  let member (name : String) (s : Option String) : List (String × Json) :=
    s.toList.map fun s => (name, .str s)
  .obj (("accept", .bool r.accept) :: member "modified_query" r.modifiedQuery ++
    member "modified_result" r.modifiedResult ++ member "error_message" r.errorMessage)

/-- A decision under reading: the fields read so far. -/
structure Draft where
  accept : Option Bool
  texts : List (String × Option String)

/-- A field that holds a text. -/
def textField (name : String) : Json.Typed.Field Draft :=
  ⟨name, true, fun d => (d.texts.lookup name).isSome, fun d c => do
    let (v, c) ← Json.Typed.optional Json.Typed.string c
    return ({ d with texts := (name, v) :: d.texts }, c)⟩

/-- The fields of a decision. -/
def fields : List (Json.Typed.Field Draft) :=
  [⟨"accept", false, (·.accept.isSome), fun d c => do
      let (v, c) ← Json.Typed.bool c
      return ({ d with accept := some v }, c)⟩,
   textField "modified_query", textField "modified_result", textField "error_message"]

/-- The decision that a draft became. -/
def ofDraft (d : Draft) : Response :=
  let text (name : String) : Option String := (d.texts.lookup name).join
  ⟨d.accept.getD false, text "modified_query", text "modified_result", text "error_message"⟩

/-- The decision of some letters. -/
def ofLetters (ls : Json.Typed.Letters) : Except Json.Fault Response := do
  let d ← Json.Typed.ofLetters
    (fun ls => Json.Typed.record ls "GuardrailResponse" fields ⟨none, []⟩) ls
  return ofDraft d

/-- The decision of a text. -/
def ofText (s : String) : Except Json.Fault Response := ofLetters (s.toList.map some)

/-- The decision of bytes. -/
def ofBytes (bytes : List UInt8) : Except Json.Fault Response := ofLetters (Text.Utf8.letters bytes)

end Response

end SqlGate.Guardrail
