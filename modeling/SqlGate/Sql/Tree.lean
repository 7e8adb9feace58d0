import SqlGate.Sql.Token

/-!
# Syntax trees of statements

A tree keeps what a rule can ask about: which kind of statement stands where, whether a row filter
is there, which session variable is set to what, and every query and statement at its place. What
else a statement says is kept as its operands, the expressions inside it in the order of the text;
through them each nested query stays reachable.

The five kinds of node refer to one another: a statement may hold queries, a query has a body that
may again be a statement, and any expression may hold a query.
-/

namespace SqlGate.Sql

/-- A word that names something, with the quote it is written in. -/
structure Ident where
  value : String
  quote : Option Char
  deriving Repr, DecidableEq

/-- The parts of a dotted name. -/
abbrev Name := List Ident

/-- A name part as it is written: in quotes, a quote inside it is written twice. -/
def Ident.text (i : Ident) : String :=
  match i.quote with
  | none => i.value
  | some q =>
    String.ofList ([q] ++ i.value.toList.flatMap (fun c => if c = q then [c, c] else [c]) ++ [q])

/-- A dotted name as it is written. -/
def Name.text (n : Name) : String := ".".intercalate (n.map Ident.text)

/-- What a transaction may do. -/
inductive AccessMode where
  | readOnly
  | readWrite
  deriving Repr, DecidableEq

/-- A setting of one transaction. -/
inductive TransactionMode where
  | isolation (level : String)
  | access (mode : AccessMode)
  deriving Repr, DecidableEq

mutual

/-- An expression. -/
inductive Expr where
  | name (parts : Name)
  | literal (value : Token)
  /-- All columns, or all of one relation. -/
  | wildcard (relation : Name)
  | call (function : Name) (operands : List Expr)
  /-- A field or an element of a value. -/
  | access (root : Expr) (steps : List Expr)
  | query (q : Query)
  /-- An operator or another fixed form over its operands. -/
  | form (operands : List Expr)

/-- What stands in a `FROM` list. -/
inductive Relation where
  /-- A table, or rows that a function gives. -/
  | source (operands : List Expr)
  | derived (q : Query)
  | pivoted (relation : Relation) (operands : List Expr)
  | joined (relations : List Relation) (operands : List Expr)

/-- A query: its named queries, its body, and the expressions of order, limit and offset. -/
inductive Query where
  | mk (named : List Query) (body : QueryBody) (operands : List Expr)

/-- The body of a query. -/
inductive QueryBody where
  | select (operands : List Expr) (relations : List Relation)
  | query (q : Query)
  /-- A union, an intersection or a difference. -/
  | combined (left right : QueryBody)
  | values (operands : List Expr)
  /-- An `INSERT`, `UPDATE` or `DELETE` that gives rows. -/
  | change (s : Statement)
  | merge (s : Statement)
  | table

/-- A statement. -/
inductive Statement where
  | query (q : Query)
  | insert (source : Option Query) (operands : List Expr)
  | update (condition : Option Expr) (relations : List Relation) (operands : List Expr)
  | delete (condition : Option Expr) (relations : List Relation) (operands : List Expr)
  | merge (relations : List Relation) (operands : List Expr)
  | explain (s : Statement)
  /-- A question about the columns of a table. -/
  | describe (table : Name)
  | prepare (s : Statement)
  /-- Rows read from or written to something outside the tables. -/
  | copy (source : Option Query) (out : Bool)
  | drop
  | truncate (operands : List Expr)
  /-- A new function or procedure. -/
  | routine (operands : List Expr) (body : List Statement)
  /-- A session variable and the values it gets. -/
  | set (target : Name) (values : List Expr)
  | setTransaction (modes : List TransactionMode)
  | startTransaction (modes : List TransactionMode)
  /-- One session variable, or all, set back. -/
  | reset (target : Option Name)
  | discard (what : String)
  /-- Any other statement, by its first words. -/
  | other (kind : String) (operands : List Expr) (queries : List Query) (bodies : List Statement)

end

instance : Inhabited Expr := ⟨.form []⟩
instance : Inhabited Relation := ⟨.source []⟩
instance : Inhabited QueryBody := ⟨.table⟩
instance : Inhabited Query := ⟨.mk [] .table []⟩
instance : Inhabited Statement := ⟨.drop⟩

namespace Expr

/-- Whether an expression is the bare word `DEFAULT`. -/
def isDefault : Expr → Bool
  | name [i] => i.quote.isNone && asciiUpper i.value = "DEFAULT"
  | _ => false

end Expr

end SqlGate.Sql
