import SqlGate.Pipeline
import SqlGate.Rpc.Method
import SqlGate.Session

/-!
# Serving a client

A service reads lines from a client, handles the requests on them at the same time, and writes
responses as requests conclude. All lines that are there are heard before any request on them is
handled, so a request may be withdrawn before it has begun.

A line that is no text ends the service: nothing that comes after it is heard, though calls under
way go on. The end of the input ends it when all requests have concluded.
-/

namespace SqlGate

open Rpc

/-- A service on a clock. -/
structure Service where
  name : String
  pipeline : Pipeline
  backend : Backend
  session : Session
  gateway : Gateway Answer
  /-- The requests whose calls are under way, with the numbers of the calls. -/
  underWay : List (Nat × Nat)
  /-- The beginning of a line. -/
  unread : List UInt8
  fault : Option Text.Utf8.Fault

namespace Service

/-- A service that has read nothing. -/
def start (name : String) (pipeline : Pipeline) (backend : Backend) : Service :=
  ⟨name, pipeline, backend, .empty, .ofPool pipeline.pool, [], [], none⟩

/-! ## Hearing -/

/-- The byte at the end of a line. -/
def newline : UInt8 := 0x0A

/-- Puts a byte in front of lines that are complete and the beginning of the next one. -/
def addByte (b : UInt8) : List (List UInt8) × List UInt8 → List (List UInt8) × List UInt8
  | (complete, rest) =>
    if b = newline then ([b] :: complete, rest)
    else
      match complete with
      | [] => ([], b :: rest)
      | l :: ls => ((b :: l) :: ls, rest)

/-- The lines that are complete, each with its end, and the beginning of the next one. -/
def lines (bytes : List UInt8) : List (List UInt8) × List UInt8 := bytes.foldr addByte ([], [])

/-- Notes in the gateway what was heard. The contexts of the gateway have the numbers of the
requests. -/
def note (s : Service) : Session.Heard → Service
  | .accepted .. => { s with gateway := s.gateway.addContext .unbounded }
  | .withdrawn n => { s with gateway := s.gateway.revoke n }
  | _ => s

/-- Hears a line. -/
def hear (s : Service) (line : String) : Service × Session.Heard :=
  let (session, heard) := s.session.hear line
  (note { s with session } heard, heard)

/-- Hears lines until one is no text. -/
def hearAll (s : Service) : List (List UInt8) → Service × List Session.Heard
  | [] => (s, [])
  | l :: ls =>
    match Text.Utf8.decode l with
    | .error why => ({ s with fault := some why }, [])
    | .ok line =>
      let (s, heard) := s.hear line
      let (s, rest) := hearAll s ls
      (s, heard :: rest)

/-! ## Handling -/

/-- A request concludes. -/
def conclude (s : Service) (number : Nat) (outcome : Except Fault Json) :
    Service × List Response :=
  let (session, response) := s.session.conclude number outcome
  ({ s with session }, response.toList)

/-- Handles what was heard. -/
def handle (s : Service) : Session.Heard → Service × List Response
  | .refused r => (s, [r])
  | .withdrawn _ => ({ s with gateway := s.gateway.settle }, [])
  | .nothing => (s, [])
  | .accepted n r =>
    match r.task s.name with
    | .respond outcome => s.conclude n outcome
    | .call c =>
      ({ s with
        underWay := s.underWay ++ [(n, s.gateway.tasks.length)]
        gateway := s.gateway.start n (s.pipeline.call c) s.backend }, [])

/-- Handles all that was heard, in its order. -/
def handleAll (s : Service) : List Session.Heard → Service × List Response
  | [] => (s, [])
  | h :: hs =>
    let (s, now) := s.handle h
    let (s, later) := handleAll s hs
    (s, now ++ later)

/-- Concludes the requests whose calls have ended; one whose call broke off never concludes. -/
def collect (s : Service) : List (Nat × Nat) → Service × List Response
  | [] => (s, [])
  | (n, i) :: rest =>
    match s.gateway.stage? i with
    | some (.ended _ (some a)) =>
      let (s, now) := s.conclude n (.ok a.content)
      let (s, later) := collect s rest
      (s, now ++ later)
    | some (.ended _ none) => collect s rest
    | _ =>
      let (s, later) := collect s rest
      ({ s with underWay := (n, i) :: s.underWay }, later)

/-- Concludes what has ended. -/
def gather (s : Service) : Service × List Response := collect { s with underWay := [] } s.underWay

/-- Hears lines and handles what was heard. -/
def serve (s : Service) (ls : List (List UInt8)) : Service × List Response :=
  let (s, heard) := s.hearAll ls
  let (s, now) := s.handleAll heard
  let (s, later) := s.gather
  (s, now ++ later)

/-! ## What comes from outside -/

/-- Bytes come in. -/
def feed (s : Service) (bytes : List UInt8) : Service × List Response :=
  if s.fault.isSome then (s, [])
  else
    let (complete, unread) := lines (s.unread ++ bytes)
    { s with unread }.serve complete

/-- Time passes. -/
def pass (s : Service) (millis : Nat) : Service × List Response :=
  { s with gateway := s.gateway.pass millis }.gather

/-- How a service ends. -/
inductive End where
  | closed
  | failed (why : Text.Utf8.Fault)
  /-- It waits for a call that never ends. -/
  | stuck

/-- The input ends. What stands after the last line is a line too. -/
def finish (s : Service) : Service × List Response × End :=
  let (s, now) :=
    if s.fault.isSome || s.unread.isEmpty then (s, [])
    else { s with unread := [] }.serve [s.unread]
  match s.fault with
  | some why => (s, now, .failed why)
  | none =>
    let (s, later) := { s with gateway := s.gateway.finish }.gather
    (s, now ++ later, if s.underWay.isEmpty then .closed else .stuck)

end Service

/-- The code and the wording of the failure of a service. -/
def Service.failure (why : Text.Utf8.Fault) : Int × String :=
  (Rpc.internalCode, "IO error: " ++ why.message)

end SqlGate
