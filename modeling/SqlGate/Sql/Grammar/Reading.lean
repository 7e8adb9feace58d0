import SqlGate.Sql.Tree

/-!
# Reading tokens

A reader of the grammar takes tokens from the front of the unread ones and gives a part of the
tree, or a fault. Blanks are passed over, except where a reader asks for them. Three settings go
along with the unread tokens: how deep trees may still nest, whether a column definition is being
read (there `NOT NULL` and `COLLATE` end an expression), and the token read last.

A reader that fails leaves nothing read: `attempt` goes on as if it had not been tried. A tree that
nests too deep is the one fault that no alternative catches.
-/

namespace SqlGate.Sql

/-- Why a text is no statement. -/
inductive Fault where
  /-- Something else should stand at a token; the end of the text has no place. -/
  | expected (what : String) (found : Token) (place : Option Place)
  /-- A rule beyond the order of tokens is broken. -/
  | refused (why : String)
  | tooDeep
  deriving Repr, DecidableEq

/-- A fault as it is reported. -/
def Fault.message : Fault → String
  | expected what found place =>
    "Expected: " ++ what ++ ", found: " ++ found.text ++ placeText place
  | refused why => why
  | tooDeep => "recursion limit exceeded"

/-- The unread tokens and the settings of reading. -/
structure Unread where
  rest : List Located
  depth : Nat
  inColumn : Bool
  last : Token

/-- What a reader gives, and what is unread after it, which is the end of what was unread before. -/
abbrev Outcome (α : Type) (u : Unread) := { r : α × Unread // r.2.rest <:+ u.rest }

/-- Reads a part of a tree. -/
def Reader (α : Type) := (u : Unread) → Except Fault (Outcome α u)

namespace Reader

variable {α β : Type}

/-- Gives something and reads nothing. -/
def give (a : α) : Reader α := fun u => .ok ⟨(a, u), List.suffix_rfl⟩

/-- Reads one part, and then more. -/
def bind (p : Reader α) (f : α → Reader β) : Reader β := fun u =>
  match p u with
  | .ok ⟨(a, u'), h⟩ =>
    match f a u' with
    | .ok ⟨r, h'⟩ => .ok ⟨r, h'.trans h⟩
    | .error e => .error e
  | .error e => .error e

instance : Monad Reader where
  pure := give
  bind := bind

instance : MonadExceptOf Fault Reader where
  throw f := fun _ => .error f
  tryCatch p other := fun u =>
    match p u with
    | .ok r => .ok r
    | .error f => other f u

instance : MonadReaderOf Unread Reader where
  read := fun u => give u u

/-- The unread tokens without the blanks in front. -/
def skipBlanks (rest : List Located) : List Located := rest.dropWhile fun t => t.token.isBlank

/-- The unread tokens that are no blanks. -/
def ahead : Reader (List Located) := do return skipBlanks (← read).rest

/-- The next token. -/
def peek : Reader Token := do
  return match ← ahead with
  | [] => .eof
  | t :: _ => t.token

/-- The token that comes after the next `n`. -/
def peekAfter : Nat → Reader Token
  | 0 => peek
  | n + 1 => do
    let rec go : Nat → List Located → Token
      | k, rest =>
        match skipBlanks rest, k with
        | [], _ => .eof
        | t :: _, 0 => t.token
        | _ :: rest, k + 1 => go k rest
    return go (n + 1) (← read).rest

/-- The keyword that comes next, or the empty text. -/
def peekWord : Reader String := do return (← peek).keyword

/-- Whether some keywords come next. -/
def wordsAhead : List String → Reader Bool
  | ws => do
    let rec go : List String → List Located → Bool
      | [], _ => true
      | w :: ws, rest =>
        match skipBlanks rest with
        | [] => false
        | t :: rest => t.token.keyword = w && go ws rest
    return go ws (← read).rest

/-- What is unread when some tokens have been taken, the last of them as given. -/
def advance (a : α) (last : Token) (rest : List Located) (u : Unread) (h : rest <:+ u.rest) :
    Outcome α u :=
  ⟨(a, { u with rest, last }), h⟩

/-- Takes the next token. -/
def next : Reader Token := fun u =>
  match h : skipBlanks u.rest with
  | [] => .ok (advance .eof .eof [] u (List.nil_suffix))
  | t :: rest =>
    .ok (advance t.token t.token rest u
      ((List.suffix_cons t rest).trans (h ▸ List.dropWhile_suffix _)))

/-- Takes the next token, be it a blank. -/
def nextOrBlank : Reader (Option Token) := fun u =>
  match h : u.rest with
  | [] => give none u
  | t :: rest => .ok (advance (some t.token) t.token rest u (h ▸ List.suffix_cons t rest))

/-- Fails at the next token. -/
def expected (what : String) : Reader α := do
  match ← ahead with
  | [] => throw (.expected what .eof none)
  | t :: _ => throw (.expected what t.token (some t.place))

/-- Fails for a reason that is not the next token. -/
def refuse (why : String) : Reader α := throw (.refused why)

/-- Takes a keyword if it comes next. -/
def word (w : String) : Reader Bool := do
  if (← peek).keyword = w then let _ ← next; return true else return false

/-- Takes some keywords if they all come next. -/
def words (ws : List String) : Reader Bool := do
  if ← wordsAhead ws then
    for _ in ws do let _ ← next
    return true
  else return false

/-- Takes one of some keywords. -/
def oneOf (ws : List String) : Reader (Option String) := do
  let k ← peekWord
  if ws.contains k then let _ ← next; return some k else return none

/-- Takes a keyword, which has to come next. -/
def expectWord (w : String) : Reader Unit := do if ← word w then pure () else expected w

/-- Takes some keywords, which have to come next. -/
def expectWords (ws : List String) : Reader Unit := ws.forM expectWord

/-- Takes one of some keywords, which has to come next. -/
def expectOneOf (ws : List String) : Reader String := do
  match ← oneOf ws with
  | some w => return w
  | none => expected ("one of " ++ " or ".intercalate ws)

/-- Whether a symbol comes next. -/
def symbolAhead (s : String) : Reader Bool := do return (← peek) = .symbol s

/-- Takes a symbol if it comes next. -/
def symbol (s : String) : Reader Bool := do
  if ← symbolAhead s then let _ ← next; return true else return false

/-- Takes a symbol, which has to come next. -/
def expectSymbol (s : String) : Reader Unit := do if ← symbol s then pure () else expected s

/-- Tries a reader, and reads nothing if it fails. -/
def attempt (p : Reader α) : Reader (Option α) := fun u =>
  match p u with
  | .ok ⟨(a, u'), h⟩ => .ok ⟨(some a, u'), h⟩
  | .error .tooDeep => .error .tooDeep
  | .error _ => give none u

/-- As a reader, which reads nothing if it gives nothing. -/
def orNothing (p : Reader (Option α)) : Reader (Option α) := fun u =>
  match p u with
  | .ok ⟨(some a, u'), h⟩ => .ok ⟨(some a, u'), h⟩
  | .ok ⟨(none, _), _⟩ => give none u
  | .error f => .error f

/-- Tries a reader, and on any fault goes on with another one that is told the fault. -/
def orElse (p : Reader α) (other : Fault → Reader α) : Reader α := fun u =>
  match p u with
  | .ok r => .ok r
  | .error f => other f u

/-- What a reader gives when a test of the next token holds. -/
def whenWord (w : String) (p : Reader α) : Reader (Option α) := do
  if ← word w then return some (← p) else return none

/-- As `whenWord` for a reader of a list, which is empty otherwise. -/
def listAfter (w : String) (p : Reader (List α)) : Reader (List α) := do
  if ← word w then p else return []

/-- As `listAfter` after several keywords. -/
def listAfterWords (ws : List String) (p : Reader (List α)) : Reader (List α) := do
  if ← words ws then p else return []

/-- Reads with other settings, which are set back after it. -/
def withSettings (before : Unread → Unread) (after : Unread → Unread → Unread)
    (hb : ∀ u, (before u).rest = u.rest) (ha : ∀ u u', (after u u').rest = u'.rest)
    (p : Reader α) : Reader α := fun u =>
  match p (before u) with
  | .ok ⟨(a, u'), h⟩ => .ok ⟨(a, after u u'), (ha u u').symm ▸ hb u ▸ h⟩
  | .error f => .error f

/-- Reads one level deeper, if that is allowed. -/
def deeper (p : Reader α) : Reader α := fun u =>
  match u.depth with
  | 0 => .error .tooDeep
  | d + 1 =>
    withSettings (fun u => { u with depth := d }) (fun _ u' => { u' with depth := d + 1 })
      (fun _ => rfl) (fun _ _ => rfl) p u

/-- Reads with `inColumn` as given. -/
def withColumn (b : Bool) (p : Reader α) : Reader α :=
  withSettings (fun u => { u with inColumn := b }) (fun u u' => { u' with inColumn := u.inColumn })
    (fun _ => rfl) (fun _ _ => rfl) p

/-- Reads again and again until nothing more is there, at most `fuel` times. -/
def repeated (p : Reader (Option α)) : Nat → Reader (List α)
  | 0 => return []
  | fuel + 1 => do
    match ← p with
    | none => return []
    | some a => return a :: (← repeated p fuel)

/-- Reads again and again until nothing more is there. Each time takes a token or stops. -/
def many (p : Reader (Option α)) : Reader (List α) := do repeated p ((← read).rest.length + 1)

/-- As `many` for readers of lists, one list after another. -/
def manyLists (p : Reader (Option (List α))) : Reader (List α) := return (← many p).flatten

/-- One or more, with a separator that says whether another one follows. -/
def separated (more : Reader Bool) (p : Reader α) : Reader (List α) := do
  let first ← p
  let rest ← many do if ← more then return some (← p) else return none
  return first :: rest

/-- One or more with commas between them. -/
def commas (p : Reader α) : Reader (List α) := separated (symbol ",") p

/-- As `commas` for readers of lists, one list after another. -/
def commaLists (p : Reader (List α)) : Reader (List α) := return (← commas p).flatten

/-- Something between parentheses. -/
def parens (p : Reader α) : Reader α := do
  expectSymbol "("
  let a ← p
  expectSymbol ")"
  return a

/-- Any number with commas between them, up to a symbol that ends the list. -/
def commasBefore (final : String) (p : Reader α) : Reader (List α) := do
  if ← symbolAhead final then return [] else commas p

/-- A reader of an operand as a list of one. -/
def single (p : Reader α) : Reader (List α) := return [← p]

/-- Drops what a reader gives. -/
def skip (p : Reader α) : Reader (List β) := do let _ ← p; return []

end Reader

end SqlGate.Sql
