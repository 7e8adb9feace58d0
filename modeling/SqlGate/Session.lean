import SqlGate.Rpc.Message
import SqlGate.Text.Basic

/-!
# Sessions

A session keeps the books on the requests that came in. A line is heard: it is refused, or it is a
request that is accepted, or it withdraws one. Later a request concludes and is responded to, unless
it was withdrawn. Hearing and concluding may be interleaved in any way.

A request is withdrawn by its identifier. If two requests under way have the same one, it stands for
the newer; when the first of them concludes, it stands for none.
-/

namespace SqlGate

open Rpc

/-- A request that was accepted. -/
structure Session.Ticket where
  id : Json
  isWithdrawn : Bool
  isConcluded : Bool

/-- The requests of a session, known by their place among all of them. -/
structure Session where
  tickets : List Session.Ticket
  /-- The requests that the written forms of identifiers stand for. -/
  known : List (String × Nat)

namespace Session

/-- A session in which nothing was heard. -/
def empty : Session := ⟨[], []⟩

/-- The method that withdraws a request. -/
def withdrawalMethod : String := "notifications/cancelled"

/-- What was heard. -/
inductive Heard where
  | refused (response : Response)
  | accepted (number : Nat) (request : Request)
  | withdrawn (number : Nat)
  | nothing

/-- Forgets what an identifier stands for. -/
def forget (s : Session) (id : Json) : Session :=
  { s with known := s.known.filter (·.1 ≠ id.text) }

/-- Accepts a request with an identifier. -/
def accept (s : Session) (id : Json) : Session :=
  let s := s.forget id
  ⟨s.tickets ++ [⟨id, false, false⟩], (id.text, s.tickets.length) :: s.known⟩

/-- The request that an identifier stands for. -/
def find? (s : Session) (id : Json) : Option Nat := s.known.lookup id.text

/-- Withdraws a request. -/
def withdraw (s : Session) (number : Nat) : Session :=
  { s with tickets := s.tickets.modify number ({ · with isWithdrawn := true }) }

/-- The request that some parameters withdraw. -/
def withdrawn? (s : Session) (params : Option Json) : Option Nat := do
  let v ← params
  let id ← (withdrawal (.ofJson v)).toOption
  s.find? id

/-- Takes in a request. -/
def take (s : Session) (r : Request) : Session × Heard :=
  if r.method = withdrawalMethod then
    match s.withdrawn? r.params with
    | some n => (s.withdraw n, .withdrawn n)
    | none => (s, .nothing)
  else
    match r.id with
    | some id => (s.accept id, .accepted s.tickets.length r)
    | none => (s, .nothing)

/-- Hears a line. -/
def hear (s : Session) (line : String) : Session × Heard :=
  let line := Text.trim line.toList
  if line.isEmpty then (s, .nothing)
  else
    match Request.ofText (String.ofList line) with
    | .error (id, why) => (s, .refused ⟨id, .error why⟩)
    | .ok r => s.take r

/-- A request concludes. -/
def conclude (s : Session) (number : Nat) (outcome : Except Fault Json) :
    Session × Option Response :=
  match s.tickets[number]? with
  | none => (s, none)
  | some t =>
    let s := { s with tickets := s.tickets.modify number ({ · with isConcluded := true }) }
    (s.forget t.id, if t.isWithdrawn then none else some ⟨t.id, outcome⟩)

end Session

end SqlGate
