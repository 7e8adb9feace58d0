import SqlGate.Sql.Grammar.Access
import SqlGate.Sql.Grammar.Alter
import SqlGate.Sql.Grammar.Change
import SqlGate.Sql.Grammar.Session
import SqlGate.Sql.Grammar.Upkeep
import SqlGate.Sql.Lexer

/-!
# Statements of a text

`Statement.ofTokens?` reads the statements of a token list, which stand between semicolons. The
parts of the grammar are tied into one `Grammar` by a number that bounds how often they may call
one another; a text of `n` tokens never needs more than `2 n + 60` such calls, since a call that
takes no token goes one level deeper and there are fifty levels.
-/

namespace SqlGate.Sql

namespace Grammar

open Reader

variable (g : Grammar)

/-- A statement by its first word, after that word. -/
def statementAfter (w : String) : Reader Statement := do
  let plainWord (kind : String) (p : Reader Unit) : Reader Statement := do
    p
    return .other kind [] [] []
  match w with
  | "KILL" => kill
  | "DESC" | "DESCRIBE" => g.explain false
  | "EXPLAIN" => g.explain true
  | "ANALYZE" => g.analyze
  | "CASE" => g.caseStatement
  | "IF" => g.ifStatement
  | "WHILE" => g.whileStatement
  | "RAISE" => g.raise
  | "TRUNCATE" => g.truncate
  | "ATTACH" => g.attach
  | "MSCK" => check
  | "CREATE" => g.create
  | "CACHE" => g.cache
  | "DROP" => g.drop
  | "DISCARD" => discard
  | "DECLARE" => g.declare
  | "FETCH" => fetchRows
  | "DELETE" => g.delete
  | "INSERT" => g.insert
  | "UNCACHE" => plainWord "UNCACHE" do
    expectWord "TABLE"
    ifExists
    let _ ← name
  | "UPDATE" => g.update
  | "ALTER" => g.alter
  | "CALL" => g.callStatement
  | "COPY" => g.copy
  | "OPEN" => plainWord "OPEN" do let _ ← ident
  | "CLOSE" => plainWord "CLOSE" do if ← word "ALL" then pure () else let _ ← ident
  | "SET" => g.set
  | "SHOW" => g.show
  | "USE" => plainWord "USE" do let _ ← name
  | "GRANT" => g.grant
  | "DENY" => g.deny
  | "REVOKE" => g.revoke
  | "START" =>
    expectWord "TRANSACTION"
    return .startTransaction (← transactionModes)
  | "BEGIN" =>
    let _ ← oneOf ["TRANSACTION", "WORK", "TRAN"]
    return .startTransaction (← transactionModes)
  | "END" => plainWord "END" chain
  | "SAVEPOINT" => plainWord "SAVEPOINT" do let _ ← ident
  | "RELEASE" => plainWord "RELEASE" do
    let _ ← word "SAVEPOINT"
    let _ ← ident
  | "COMMIT" => plainWord "COMMIT" chain
  | "RAISERROR" => g.raiseError
  | "ROLLBACK" => rollback
  | "ASSERT" => g.assert
  | "DEALLOCATE" => plainWord "DEALLOCATE" do
    let _ ← word "PREPARE"
    let _ ← ident
  | "EXECUTE" | "EXEC" => g.execute
  | "PREPARE" => g.prepare
  | "MERGE" => g.merge
  | "LISTEN" => plainWord "LISTEN" do let _ ← ident
  | "UNLISTEN" => plainWord "UNLISTEN" do if ← symbol "*" then pure () else let _ ← ident
  | "NOTIFY" => notify
  | "PRAGMA" => pragma
  | "UNLOAD" => g.unload
  | "RENAME" => rename
  | "LOAD" => plainWord "LOAD" do let _ ← ident
  | "COMMENT" => comment
  | "PRINT" => return .other "PRINT" [← g.any] [] []
  | "RETURN" => return .other "RETURN" (← attempt g.any).toList [] []
  | "EXPORT" => g.exportRows
  | "VACUUM" => vacuum
  | "RESET" => reset
  | _ => expected "an SQL statement"

/-- The first words of statements that are no queries. -/
def statementWords : List String :=
  ["KILL", "DESC", "DESCRIBE", "EXPLAIN", "ANALYZE", "CASE", "IF", "WHILE", "RAISE", "TRUNCATE",
    "ATTACH", "MSCK", "CREATE", "CACHE", "DROP", "DISCARD", "DECLARE", "FETCH", "DELETE", "INSERT",
    "UNCACHE", "UPDATE", "ALTER", "CALL", "COPY", "OPEN", "CLOSE", "SET", "SHOW", "USE", "GRANT",
    "DENY", "REVOKE", "START", "BEGIN", "END", "SAVEPOINT", "RELEASE", "COMMIT", "RAISERROR",
    "ROLLBACK", "ASSERT", "DEALLOCATE", "EXECUTE", "EXEC", "PREPARE", "MERGE", "LISTEN",
    "UNLISTEN", "NOTIFY", "PRAGMA", "UNLOAD", "RENAME", "LOAD", "COMMENT", "PRINT", "RETURN",
    "EXPORT", "VACUUM", "RESET"]

/-- A statement. -/
def statementForm : Reader Statement := deeper do
  let w ← peekWord
  if ["SELECT", "WITH", "VALUES", "FROM"].contains w || (← symbolAhead "(") then
    return .query (← g.query)
  else if statementWords.contains w then
    let _ ← next
    g.statementAfter w
  else expected "an SQL statement"

end Grammar

/-- The parts of the grammar, which may call one another a number of times. -/
def grammar : Nat → Grammar
  | 0 =>
    { statement := throw .tooDeep
      query := throw .tooDeep
      body := fun _ => throw .tooDeep
      expr := fun _ => throw .tooDeep
      operand := throw .tooDeep
      typeName := throw .tooDeep
      relation := throw .tooDeep }
  | n + 1 =>
    let g := grammar n
    { statement := g.statementForm
      query := g.queryForm g.changeAfter
      body := g.bodyForm
      expr := g.exprForm
      operand := g.operandForm
      typeName := Reader.typeWith g.typeName
      relation := g.relationForm }

namespace Statement

open Reader

/-- Takes a semicolon if it comes next. -/
def semicolon : Reader (Option Unit) := do if ← symbol ";" then return some () else return none

/-- Takes the semicolons that come next. -/
def separators : Reader (List Unit) := many semicolon

/-- Statements with semicolons between them, `fuel` at most. After a statement, a word `END` ends
the whole, whatever comes after it. -/
def listFrom (one : Reader Statement) : Nat → Reader (List Statement)
  | 0 => return []
  | fuel + 1 => do
    let _ ← separators
    match ← peek with
    | .eof => return []
    | _ =>
      let s ← one
      let t ← peek
      if t = .eof ∨ t.keyword = "END" then return [s]
      else if t = .symbol ";" then return s :: (← listFrom one fuel)
      else expected "end of statement"

/-- All of some tokens, before anything is read. -/
def unread (ts : List Located) : Unread :=
  { rest := ts, depth := 50, inColumn := false, last := .eof }

/-- The reader of one statement out of `n` tokens. -/
def reader (n : Nat) : Reader Statement := (grammar (2 * n + 60)).statement

/-- The statements of some tokens, or why they are none. -/
def ofTokens? (ts : List Located) : Except Fault (List Statement) :=
  match listFrom (reader ts.length) (ts.length + 1) (unread ts) with
  | .ok ⟨(ss, _), _⟩ => .ok ss
  | .error f => .error f

end Statement

end SqlGate.Sql
