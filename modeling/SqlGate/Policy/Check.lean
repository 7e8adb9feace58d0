import SqlGate.Policy.Rules
import SqlGate.Sql.Grammar
import SqlGate.Sql.Token
import SqlGate.Text.Basic

/-!
# Checks

## Utility statements

Three kinds of statements are known by their first two words alone: anonymous blocks, and those
that set session state back. They never stand inside other statements, so a text is cut at its
semicolons and each group is looked at by itself.
-/

namespace SqlGate.Policy

open Sql (Token Located)

/-- A utility statement. -/
inductive Utility where
  | anonymousBlock
  | resetAll
  | reset (target : String)
  | discard
  deriving Repr, DecidableEq

namespace Utility

/-- A token as it counts for the kind of a group: a word in upper case, quoted or not. -/
def word : Token → String
  | .word value _ => Sql.asciiUpper value
  | t => t.text

/-- The tokens between semicolons, without blanks and without empty groups. -/
def groups (ts : List Located) : List (List Token) :=
  let tokens := (ts.map Located.token).filter fun t => !t.isBlank
  (Text.cut (· = Token.symbol ";") tokens).filter (!·.isEmpty)

/-- The utility statement that a group is, by its first two words. -/
def ofGroup? (group : List Token) : Option Utility :=
  let second := (group.drop 1).head?.map word
  match group.head?.map word with
  | some "DO" => some .anonymousBlock
  | some "RESET" =>
    match second with
    | some "ALL" => some .resetAll
    | some name => some (.reset (Sql.asciiLower name))
    | none => some (.reset "")
  | some "DISCARD" => if second = some "ALL" then some .resetAll else some .discard
  | _ => none

/-- The number of groups and the first utility statement among them, if there is one. -/
def scan (ts : List Located) : Option (Nat × Utility) :=
  let gs := groups ts
  (gs.findSome? ofGroup?).map fun u => (gs.length, u)

end Utility

end SqlGate.Policy

/-!
## Checking a text against a policy

A text has to hold exactly one statement. A utility statement is known by its words; any other is
read, and its tree is walked: into named queries before the body, into the left side of a set
operator before the right one, into the source of an `INSERT` or a copy, and into the statement
that is explained or prepared. The first statement on the walk that breaks a rule is what the text
is refused for.
-/

namespace SqlGate.Policy

open Sql (Query QueryBody Statement Expr Name TransactionMode)

/-- What a check gives. -/
abbrev Verdict := Except Refusal Unit

instance decidableEqExcept {ε α : Type} [DecidableEq ε] [DecidableEq α] : DecidableEq (Except ε α)
  | .error x, .error y => decidable_of_decidable_of_iff (p := x = y) (by simp)
  | .ok x, .ok y => decidable_of_decidable_of_iff (p := x = y) (by simp)
  | .error _, .ok _ => .isFalse nofun
  | .ok _, .error _ => .isFalse nofun

/-- The session variables that say whether a transaction may write. -/
def accessVariables : List String := ["transaction_read_only", "default_transaction_read_only"]

/-- The last part of a variable name without quotes, in lower case. -/
def variableName (n : Name) : String :=
  let last := (Text.cut (· = '.') n.text.toList).getLast?.getD []
  let trimmed := ((last.dropWhile (· = '"')).reverse.dropWhile (· = '"')).reverse
  Sql.asciiLower (String.ofList trimmed)

namespace Rules

variable (r : Rules)

/-- A class is allowed or blocked. -/
def require (c : StatementClass) : Verdict := if r.allows c then .ok () else .error (.blocked c)

/-- A policy that is not read-only lets everything escape. -/
def refuseEscape (e : Escape) : Verdict := if r.readOnly then .error (.readOnly e) else .ok ()

/-- The rule on a utility statement. -/
def checkUtility : Utility → Verdict
  | .anonymousBlock => r.require .anonymousBlock
  | .resetAll => do
    r.refuseEscape .resetAll
    r.require .reset
  | .reset target => do
    if accessVariables.contains target then r.refuseEscape (.reset target)
    r.require .reset
  | .discard => .ok ()

/-- The rule on a session variable that gets values. -/
def checkSet (target : Name) (values : List Expr) : Verdict := do
  let name := variableName target
  if accessVariables.contains name then r.refuseEscape (.set name)
  match values with
  | [v] => if v.isDefault then r.require .reset else .ok ()
  | _ => .ok ()

/-- The rule on the settings of a transaction. -/
def checkModes (modes : List TransactionMode) (e : Escape) : Verdict :=
  if modes.contains (.access .readWrite) then r.refuseEscape e else .ok ()

mutual

/-- The rules on a statement and on those it leads to. -/
def checkStatement : Statement → Verdict
  | .query q => checkQuery q
  | .insert (some q) _ => checkQuery q
  | .insert none _ => .ok ()
  | .update none _ _ => r.require .updateWithoutWhere
  | .update (some _) _ _ => .ok ()
  | .delete none _ _ => r.require .deleteWithoutWhere
  | .delete (some _) _ _ => .ok ()
  | .explain s => checkStatement s
  | .prepare s => do
    r.require .prepare
    checkStatement s
  | .copy (some q) out => do
    checkQuery q
    if out then .ok () else r.require .copyFrom
  | .copy none out => if out then .ok () else r.require .copyFrom
  | .drop => r.require .drop
  | .truncate _ => r.require .truncate
  | .routine _ _ => r.require .createFunction
  | .set target values => r.checkSet target values
  | .setTransaction modes => r.checkModes modes .switchTransaction
  | .startTransaction modes => r.checkModes modes .startTransaction
  | .merge _ _ => .ok ()
  | .describe _ => .ok ()
  | .reset _ => .ok ()
  | .discard _ => .ok ()
  | .other _ _ _ _ => .ok ()

/-- The rules on a query: its named queries in their order, and then its body. -/
def checkQuery : Query → Verdict
  | .mk named body _ => do
    checkQueries named
    checkBody body

/-- The rules on some queries in their order. -/
def checkQueries : List Query → Verdict
  | [] => .ok ()
  | q :: qs => do
    checkQuery q
    checkQueries qs

/-- The rules on the body of a query. -/
def checkBody : QueryBody → Verdict
  | .query q => checkQuery q
  | .combined left right => do
    checkBody left
    checkBody right
  | .change s => checkStatement s
  | .select _ _ => .ok ()
  | .values _ => .ok ()
  | .merge _ => .ok ()
  | .table => .ok ()

end

/-- The rules on the statements that a text was read as. -/
def checkStatements : List Statement → Verdict
  | [] => .error .empty
  | [s] => r.checkStatement s
  | ss => .error (.several ss.length)

/-- The rules on a text. -/
def check (sql : String) : Verdict :=
  match Sql.tokenize sql with
  | .error why => .error (.unreadable why)
  | .ok ts =>
    match Utility.scan ts with
    | some (n, u) => if 1 < n then .error (.several n) else r.checkUtility u
    | none =>
      match Statement.ofTokens? ts with
      | .error f => .error (.unreadable ("sql parser error: " ++ f.message))
      | .ok ss => r.checkStatements ss

end Rules

end SqlGate.Policy
