import SqlGate.Document

/-!
# What a policy allows

Statements that can destroy or hide something fall into classes, each with a switch that is off at
first. Apart from the switches a policy may be read-only, which is looked at before them.
-/

namespace SqlGate.Policy

/-- The classes of statements that a switch allows. -/
inductive StatementClass where
  | drop
  | truncate
  | anonymousBlock
  | deleteWithoutWhere
  | updateWithoutWhere
  | copyFrom
  | createFunction
  | prepare
  | reset
  deriving Repr, DecidableEq

namespace StatementClass

/-- The switch that allows a class. -/
def toggle : StatementClass → String
  | drop => "allow_drop"
  | truncate => "allow_truncate"
  | anonymousBlock => "allow_do"
  | deleteWithoutWhere => "allow_delete_without_where"
  | updateWithoutWhere => "allow_update_without_where"
  | copyFrom => "allow_copy_from"
  | createFunction => "allow_create_function"
  | prepare => "allow_prepare"
  | reset => "allow_reset"

/-- The words by which a class is known. -/
def title : StatementClass → String
  | drop => "DROP"
  | truncate => "TRUNCATE"
  | anonymousBlock => "DO"
  | deleteWithoutWhere => "DELETE"
  | updateWithoutWhere => "UPDATE"
  | copyFrom => "COPY FROM"
  | createFunction => "CREATE FUNCTION"
  | prepare => "PREPARE"
  | reset => "RESET"

/-- Why a class is not allowed. -/
def reason : StatementClass → String
  | drop => "dropping database objects is not allowed"
  | truncate => "truncating tables is not allowed"
  | anonymousBlock => "anonymous code blocks cannot be analyzed"
  | deleteWithoutWhere => "DELETE without WHERE clause would remove every row"
  | updateWithoutWhere => "UPDATE without WHERE clause would modify every row"
  | copyFrom => "importing data with COPY FROM is not allowed"
  | createFunction => "creating functions or procedures is not allowed"
  | prepare => "creating prepared statements is not allowed"
  | reset => "resetting session variables is not allowed"

/-- All classes, in the order in which their switches are listed. -/
def all : List StatementClass :=
  [drop, truncate, anonymousBlock, deleteWithoutWhere, updateWithoutWhere, copyFrom,
    createFunction, prepare, reset]

/-- Every class is listed. -/
theorem mem_all (c : StatementClass) : c ∈ all := by cases c <;> decide

end StatementClass

/-- A policy: whether it is read-only, and which classes it allows. -/
structure Rules where
  readOnly : Bool
  allows : StatementClass → Bool

namespace Rules

/-- The policy that allows no class and is not read-only. -/
def strict : Rules := ⟨false, fun _ => false⟩

instance : Inhabited Rules := ⟨strict⟩

/-- A policy with one switch set. -/
def set (r : Rules) (c : StatementClass) (b : Bool) : Rules :=
  { r with allows := fun c' => if c' = c then b else r.allows c' }

/-- The switches that are on, by name. -/
def enabledToggles (r : Rules) : List String :=
  (StatementClass.all.filter r.allows).map StatementClass.toggle

/-- The fields of a policy in a document. -/
def fields : List (Document.Field Rules) :=
  .of "read_only" false Document.boolean (fun b r => { r with readOnly := b }) ::
    StatementClass.all.map fun c =>
      .of c.toggle false Document.boolean fun b r => r.set c b

/-- The policy of a document. -/
def ofDocument : Document.Read Rules := Document.struct "PolicyConfig" fields strict

/-- A policy as a document. -/
def toJson (r : Rules) : Json :=
  .object (("read_only", .bool r.readOnly) ::
    StatementClass.all.map fun c => (c.toggle, .bool (r.allows c)))

end Rules

/-- What would leave read-only mode. -/
inductive Escape where
  | resetAll
  | reset (target : String)
  | set (target : String)
  | startTransaction
  | switchTransaction
  deriving Repr, DecidableEq

/-- The wording of an escape. -/
def Escape.message : Escape → String
  | resetAll => "resetting all session variables"
  | reset target => "resetting " ++ target
  | set target => "setting " ++ target
  | startTransaction => "starting a read-write transaction"
  | switchTransaction => "switching the transaction to read-write"

/-- Why a policy refuses a text. -/
inductive Refusal where
  | unreadable (why : String)
  | empty
  | several (count : Nat)
  | blocked (c : StatementClass)
  | readOnly (e : Escape)
  deriving Repr, DecidableEq

/-- The wording of a refusal. -/
def Refusal.message : Refusal → String
  | unreadable why => "failed to parse SQL: " ++ why
  | empty => "no SQL statement found"
  | several n => s!"only one statement is allowed per call, got {n} statements"
  | blocked c =>
    c.title ++ " blocked: " ++ c.reason ++ " (set policy." ++ c.toggle ++ " to allow)"
  | readOnly e => e.message ++ " is not allowed in read-only mode"

end SqlGate.Policy
