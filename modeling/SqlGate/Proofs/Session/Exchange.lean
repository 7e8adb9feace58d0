import Mathlib.Data.Multiset.AddSub
import Mathlib.Logic.Relation
import SqlGate.Proofs.Session.Record

/-!
# Exchanges with a client

The reader hears one line after the other. A request that it accepts is handled on its own, and all
that are handled go on at the same time; what comes of them, and what the reader refuses, passes
through a channel that holds only so many responses to the one who writes. Any of them may take the
next step. The reader goes on to no other line while a refusal of it waits for room.

When a request ends, its identifier is forgotten, and only then it is seen whether it was withdrawn.
Anything may happen in between, but nothing withdraws a request whose identifier is forgotten
(`responseTo?_hears`).

Every exchange comes to its end (`exists_isOver`). One that takes its time, so that no response is
on its way when something else happens, goes from line to line and from request to request (`Rests`).
-/

namespace SqlGate

open Rpc Session

/-! ## Steps -/

/-- How far an exchange has come. -/
structure Exchange where
  unread : List String
  session : Session
  /-- The requests that are handled, with their numbers. -/
  running : List (Nat × Request)
  /-- The requests that have ended, and of which it is not yet seen whether they were withdrawn. -/
  ended : List (Nat × Except Fault Json)
  /-- A refusal for which the reader waits to find room in the channel. -/
  held : Option Response
  /-- Responses that wait for room in the channel. -/
  ready : List Response
  channel : List Response
  written : List Response
  record : List Event

namespace Exchange

/-- How many responses the channel holds. -/
def room : Nat := 64

def start (lines : List String) : Exchange := ⟨lines, .empty, [], [], none, [], [], [], []⟩

/-- The request that is to be handled. -/
def toHandle : Heard → List (Nat × Request)
  | .accepted n r => [(n, r)]
  | _ => []

def refusal? : Heard → Option Response
  | .refused r => some r
  | _ => none

/-- The next line is heard. -/
def hear (e : Exchange) (line : String) (rest : List String) : Exchange :=
  { e with
    unread := rest
    session := (e.session.hear line).1
    running := e.running ++ toHandle (e.session.hear line).2
    held := refusal? (e.session.hear line).2
    record := e.record ++ [.heard line (e.session.hear line).2] }

/-- A request ends, and its identifier is forgotten. -/
def conclude (e : Exchange) (n : Nat) (outcome : Except Fault Json) : Exchange :=
  { e with
    session := (e.session.conclude n outcome).1
    running := e.running.filter (·.1 ≠ n)
    ended := e.ended ++ [(n, outcome)]
    record := e.record ++ [.concluded n outcome (e.session.conclude n outcome).2] }

/-- What may happen next at a server of some name. -/
inductive Step (name : String) : Exchange → Exchange → Prop where
  | hear {e : Exchange} {line : String} {rest : List String} (hunread : e.unread = line :: rest)
    (hheld : e.held = none) : Step name e (e.hear line rest)
  | conclude {e : Exchange} {n : Nat} {r : Request} {outcome : Except Fault Json}
    (hrun : (n, r) ∈ e.running) (ho : MayEnd name r outcome) : Step name e (e.conclude n outcome)
  | respond {e : Exchange} {before after : List (Nat × Except Fault Json)} {n : Nat}
    {outcome : Except Fault Json} (hended : e.ended = before ++ (n, outcome) :: after) :
    Step name e { e with
      ended := before ++ after
      ready := e.ready ++ (e.session.responseTo? n outcome).toList }
  | offer {e : Exchange} {r : Response} (hheld : e.held = some r)
    (hroom : e.channel.length < room) :
    Step name e { e with held := none, channel := e.channel ++ [r] }
  | send {e : Exchange} {before after : List Response} {r : Response}
    (hready : e.ready = before ++ r :: after) (hroom : e.channel.length < room) :
    Step name e { e with ready := before ++ after, channel := e.channel ++ [r] }
  | write {e : Exchange} {r : Response} {rest : List Response} (hchannel : e.channel = r :: rest) :
    Step name e { e with channel := rest, written := e.written ++ [r] }

/-- What an exchange that begins with some lines may come to. -/
def Reachable (name : String) (lines : List String) : Exchange → Prop :=
  Relation.ReflTransGen (Step name) (start lines)

/-- Nothing is left to be done, so that the server returns when its input ends. -/
structure IsOver (e : Exchange) : Prop where
  unread : e.unread = []
  running : e.running = []
  ended : e.ended = []
  held : e.held = none
  ready : e.ready = []
  channel : e.channel = []

/-! ## Every exchange comes to its end -/

variable {name : String} {e e' : Exchange}

/-- How much is left to be done. -/
def work (e : Exchange) : Nat :=
  5 * e.unread.length + 4 * e.running.length + 3 * e.ended.length +
    2 * (e.held.toList.length + e.ready.length) + e.channel.length

theorem work_hear {line : String} {rest : List String} (hunread : e.unread = line :: rest)
    (hheld : e.held = none) : (e.hear line rest).work < e.work := by
  have hcost : 4 * (toHandle (e.session.hear line).2).length +
      2 * (refusal? (e.session.hear line).2).toList.length ≤ 4 := by
    cases (e.session.hear line).2 <;> simp [toHandle, refusal?]
  simp only [work, hear, hunread, hheld, List.length_cons, List.length_append, Option.toList_none,
    List.length_nil]
  omega

theorem work_conclude {n : Nat} {r : Request} (outcome : Except Fault Json)
    (hrun : (n, r) ∈ e.running) : (e.conclude n outcome).work < e.work := by
  have hfewer : (e.running.filter (·.1 ≠ n)).length < e.running.length :=
    List.length_filter_lt_length_iff_exists.2 ⟨(n, r), hrun, by simp⟩
  simp only [work, conclude, List.length_append, List.length_singleton]
  omega

/-- Whatever happens, less is left to be done. -/
theorem Step.work_lt (h : Step name e e') : e'.work < e.work := by
  cases h with
  | hear hunread hheld => exact work_hear hunread hheld
  | conclude hrun ho => exact work_conclude _ hrun
  | @respond before after n outcome hended =>
      have hone : (e.session.responseTo? n outcome).toList.length ≤ 1 := by
        cases e.session.responseTo? n outcome <;> simp
      simp only [work, hended, List.length_append, List.length_cons]
      omega
  | offer hheld hroom =>
      simp only [work, hheld, List.length_append, List.length_cons, List.length_nil,
        Option.toList_none, Option.toList_some]
      omega
  | send hready hroom =>
      simp only [work, hready, List.length_append, List.length_cons, List.length_nil]
      omega
  | write hchannel => simp [work, hchannel]

theorem exists_mayEnd (name : String) (r : Request) : ∃ outcome, MayEnd name r outcome := by
  unfold MayEnd
  cases r.task name with
  | respond o => exact ⟨o, rfl⟩
  | call c => exact ⟨_, .result ⟨[], [], 0, none⟩, rfl⟩

/-- As long as no response is on its way, something else can happen. -/
theorem exists_step_of_still (h : ¬ e.IsOver) (hheld : e.held = none) (hready : e.ready = [])
    (hchannel : e.channel = []) : ∃ e', Step name e e' := by
  cases hended : e.ended with
  | cons p after =>
      rw [← List.nil_append (p :: after)] at hended
      exact ⟨_, .respond hended⟩
  | nil =>
      cases hrunning : e.running with
      | cons p rest =>
          obtain ⟨outcome, ho⟩ := exists_mayEnd name p.2
          exact ⟨_, .conclude (hrunning ▸ List.mem_cons_self) ho⟩
      | nil =>
          cases hunread : e.unread with
          | cons line rest => exact ⟨_, .hear hunread hheld⟩
          | nil => exact absurd ⟨hunread, hrunning, hended, hheld, hready, hchannel⟩ h

/-- As long as something is left to be done, something can be. -/
theorem exists_step (name : String) (h : ¬ e.IsOver) : ∃ e', Step name e e' := by
  by_cases hchannel : e.channel = []
  · have hroom : e.channel.length < room := by
      rw [hchannel]
      decide
    cases hheld : e.held with
    | some r => exact ⟨_, .offer hheld hroom⟩
    | none =>
        cases hready : e.ready with
        | cons r after =>
            rw [← List.nil_append (r :: after)] at hready
            exact ⟨_, .send hready hroom⟩
        | nil => exact exists_step_of_still h hheld hready hchannel
  · obtain ⟨r, rest, hchannel⟩ := List.exists_cons_of_ne_nil hchannel
    exact ⟨_, .write hchannel⟩

/-- An exchange comes to its end from wherever it is. -/
theorem exists_isOver (name : String) (e : Exchange) :
    ∃ e', Relation.ReflTransGen (Step name) e e' ∧ e'.IsOver := by
  induction hwork : e.work using Nat.strongRecOn generalizing e with
  | ind n ih =>
      by_cases hover : e.IsOver
      · exact ⟨e, .refl, hover⟩
      · obtain ⟨e₁, hstep⟩ := exists_step name hover
        obtain ⟨e₂, hsteps, hover₂⟩ := ih e₁.work (hwork ▸ hstep.work_lt) e₁ rfl
        exact ⟨e₂, .head hstep hsteps, hover₂⟩

/-! ## Responses on their way -/

/-- A refusal finds room, and is written. -/
theorem steps_offer (name : String) (e : Exchange) (hchannel : e.channel = []) {r : Response}
    (hheld : e.held = some r) : Relation.ReflTransGen (Step name) e
      { e with held := none, written := e.written ++ [r] } := by
  have hroom : e.channel.length < room := by
    rw [hchannel]
    decide
  refine .head (.offer hheld hroom) (.single ?_)
  rw [hchannel]
  exact .write rfl

/-- A response that is ready is sent and written. -/
theorem steps_deliver (name : String) (e : Exchange) (hchannel : e.channel = [])
    {before after : List Response} {r : Response} (hready : e.ready = before ++ r :: after) :
    Relation.ReflTransGen (Step name) e
      { e with ready := before ++ after, written := e.written ++ [r] } := by
  have hroom : e.channel.length < room := by
    rw [hchannel]
    decide
  refine .head (.send hready hroom) (.single ?_)
  rw [hchannel]
  exact .write rfl

/-! ## Exchanges that take their time -/

section Rests

variable {line : String} {rest : List String} {s : Session} {waiting : List (Nat × Request)}
  {given : Multiset Response}

/-- No response is on its way, and some requests, each of its own number, are handled. -/
structure Rests (e : Exchange) (rest : List String) (s : Session)
    (waiting : List (Nat × Request)) (given : Multiset Response) : Prop where
  unread : e.unread = rest
  session : e.session = s
  ended : e.ended = []
  held : e.held = none
  ready : e.ready = []
  channel : e.channel = []
  written : e.written = given
  running : waiting ⊆ e.running
  nodup : (waiting.map Prod.fst).Nodup
  known : ∀ p ∈ waiting, p.1 < s.tickets.length

theorem rests_start (rest : List String) : (start rest).Rests rest .empty [] 0 where
  unread := rfl
  session := rfl
  ended := rfl
  held := rfl
  ready := rfl
  channel := rfl
  written := rfl
  running := List.nil_subset _
  nodup := List.nodup_nil
  known _ hp := nomatch hp

namespace Rests

/-- Fewer requests may be looked at. -/
theorem mono (h : e.Rests rest s waiting given) {waiting' : List (Nat × Request)}
    (hsub : waiting'.Sublist waiting) : e.Rests rest s waiting' given :=
  { h with
    running := fun _ hp => h.running (hsub.subset hp)
    nodup := h.nodup.sublist (hsub.map _)
    known := fun p hp => h.known p (hsub.subset hp) }

/-- A request that is new has a number of its own. -/
theorem numbers_hears (h : e.Rests rest s waiting given) {s' : Session} {heard : Heard}
    (hhears : Hears s line s' heard) : ((waiting ++ toHandle heard).map Prod.fst).Nodup ∧
      ∀ p ∈ waiting ++ toHandle heard, p.1 < s'.tickets.length := by
  cases hhears with
  | @accepted r id hr =>
      have hnew : ∀ p ∈ waiting, p.1 ≠ s.tickets.length := fun p hp => Nat.ne_of_lt (h.known p hp)
      refine ⟨?_, fun p hp => ?_⟩
      · rw [List.map_append, List.nodup_append]
        refine ⟨h.nodup, List.nodup_singleton _, fun n hn m hm => ?_⟩
        obtain ⟨p, hp, rfl⟩ := List.mem_map.1 hn
        exact List.mem_singleton.1 hm ▸ hnew p hp
      · rw [tickets_accept, List.length_append, List.length_singleton]
        rcases List.mem_append.1 hp with hp | hp
        · exact Nat.lt_succ_of_lt (h.known p hp)
        · exact List.mem_singleton.1 hp ▸ Nat.lt_succ_self _
  | withdrawn hw hn =>
      simp only [toHandle, List.append_nil, tickets_withdraw, List.length_modify]
      exact ⟨h.nodup, h.known⟩
  | _ =>
      simp only [toHandle, List.append_nil]
      exact ⟨h.nodup, h.known⟩

/-- The next line is heard, and if it is refused, that is written. -/
theorem hear (name : String) (h : e.Rests (line :: rest) s waiting given) :
    ∃ e', Relation.ReflTransGen (Step name) e e' ∧
      e'.Rests rest (s.hear line).1 (waiting ++ toHandle (s.hear line).2)
        (given + (refusal? (s.hear line).2).toList) := by
  obtain ⟨hnodup, hknown⟩ := h.numbers_hears (hears_hear s line)
  obtain rfl := h.session
  have hheard : Step name e (e.hear line rest) := .hear h.unread h.held
  have hrunning : waiting ++ toHandle (e.session.hear line).2 ⊆ (e.hear line rest).running :=
    List.append_subset.2 ⟨fun _ hp => List.mem_append_left _ (h.running hp),
      fun _ hp => List.mem_append_right _ hp⟩
  cases hrefused : refusal? (e.session.hear line).2 with
  | none =>
      refine ⟨e.hear line rest, .single hheard, ?_⟩
      exact ⟨rfl, rfl, h.ended, hrefused, h.ready, h.channel, by simp [Exchange.hear, h.written],
        hrunning, hnodup, hknown⟩
  | some r =>
      refine ⟨_, .head hheard (steps_offer name (e.hear line rest) h.channel hrefused), ?_⟩
      refine ⟨rfl, rfl, h.ended, rfl, h.ready, h.channel, ?_, hrunning, hnodup, hknown⟩
      rw [← h.written]
      exact (Multiset.coe_add _ _).symm

/-- A request that is handled concludes, and unless it was withdrawn, its response is written. -/
theorem conclude {before after : List (Nat × Request)} {n : Nat} {r : Request}
    {outcome : Except Fault Json} (h : e.Rests rest s (before ++ (n, r) :: after) given)
    (ho : MayEnd name r outcome) : ∃ e', Relation.ReflTransGen (Step name) e e' ∧
      e'.Rests rest (s.conclude n outcome).1 (before ++ after)
        (given + (s.conclude n outcome).2.toList) := by
  obtain rfl := h.session
  have hself : (n, r) ∈ before ++ (n, r) :: after := List.mem_append_right _ List.mem_cons_self
  have ht := List.getElem?_eq_getElem (h.known _ hself)
  have hsub : (before ++ after).Sublist (before ++ (n, r) :: after) :=
    (List.sublist_cons_self _ _).append_left _
  have hnodup := h.nodup
  rw [List.map_append, List.map_cons, List.nodup_middle, ← List.map_append,
    List.nodup_cons] at hnodup
  have hother : ∀ p ∈ before ++ after, p.1 ≠ n := by
    rintro p hp rfl
    have hmem : p.1 ∈ (before ++ after).map Prod.fst := List.mem_map_of_mem hp
    exact hnodup.1 hmem
  have hrunning : before ++ after ⊆ (e.conclude n outcome).running := fun p hp =>
    List.mem_filter.2 ⟨h.running (hsub.subset hp), decide_eq_true (hother p hp)⟩
  have hknown : ∀ p ∈ before ++ after, p.1 < (e.conclude n outcome).session.tickets.length := by
    simp only [Exchange.conclude, tickets_conclude ht, List.length_modify]
    exact fun p hp => h.known p (hsub.subset hp)
  have hended : (e.conclude n outcome).ended = [] ++ (n, outcome) :: [] := by
    simp only [Exchange.conclude, h.ended, List.nil_append]
  have hresponse : (e.conclude n outcome).ready ++
      ((e.conclude n outcome).session.responseTo? n outcome).toList =
        (e.session.conclude n outcome).2.toList := by
    simp only [Exchange.conclude, h.ready, responseTo?_conclude ht, conclude_snd, List.nil_append]
  have hsteps : Relation.ReflTransGen (Step name) e { e.conclude n outcome with
      ended := []
      ready := (e.session.conclude n outcome).2.toList } := by
    rw [← hresponse]
    exact .tail (.single (.conclude (h.running hself) ho)) (.respond hended)
  cases hgiven : (e.session.conclude n outcome).2 with
  | none =>
      rw [hgiven] at hsteps
      refine ⟨_, hsteps, ?_⟩
      refine ⟨h.unread, rfl, rfl, h.held, rfl, h.channel, ?_, hrunning, hnodup.2, hknown⟩
      simp [Exchange.conclude, h.written]
  | some response =>
      rw [hgiven] at hsteps
      have hready : [response] = [] ++ response :: [] := rfl
      refine ⟨_, hsteps.trans (steps_deliver name { e.conclude n outcome with
        ended := []
        ready := [response] } h.channel hready), ?_⟩
      refine ⟨h.unread, rfl, rfl, h.held, rfl, h.channel, ?_, hrunning, hnodup.2, hknown⟩
      rw [← h.written]
      exact (Multiset.coe_add _ _).symm

end Rests

end Rests

end Exchange

end SqlGate
