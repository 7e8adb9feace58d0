import SqlGate.Proofs.Gateway.Stages
import SqlGate.Proofs.Session.Known
import SqlGate.Proofs.Session.Serving

/-!
# What withdrawing a request does

The call of a request runs in a context of its own, which has the number of the request, and that
context is cancelled as soon as the request is withdrawn (`Service.Booked`). So a client reaches
exactly those calls whose identifiers stand for them (`withdraws_what_is_known`).
-/

namespace SqlGate

open Rpc Session

namespace Gateway

variable {α : Type} {g g' : Gateway α}

/-- Time goes on, and calls keep their places and their contexts. -/
structure Follows (g g' : Gateway α) : Prop where
  now : g.now ≤ g'.now
  contexts : g'.contexts = g.contexts
  task : ∀ (i : Nat) (t : Task α), g.tasks[i]? = some t →
    ∃ t', g'.tasks[i]? = some t' ∧ t'.context = t.context

theorem Follows.trans {g'' : Gateway α} (h : Follows g g') (h' : Follows g' g'') :
    Follows g g'' where
  now := h.now.trans h'.now
  contexts := h'.contexts.trans h.contexts
  task i t ht := by
    obtain ⟨t', ht', hcontext⟩ := h.task i t ht
    obtain ⟨t'', ht'', hcontext'⟩ := h'.task i t' ht'
    exact ⟨t'', ht'', hcontext'.trans hcontext⟩

theorem Served.follows {horizon : Option Instant} (h : Served horizon g g') : Follows g g' where
  now := h.now.ge
  contexts := h.contexts
  task i t ht := by
    obtain ⟨stage, hstage, -⟩ := h.task i t ht
    exact ⟨_, hstage, rfl⟩

theorem follows_advance (horizon : Option Instant) (g : Gateway α) :
    Follows g (g.advance horizon) := by
  have hresumed : Follows g (g.resumed horizon) := by
    refine ⟨le_rfl, rfl, fun i t ht => ?_⟩
    refine ⟨t.resumed (g.contextOf t.context) horizon g.now, ?_, Task.context_resumed _ _ _ _⟩
    rw [resumed, List.getElem?_map, ht]
    rfl
  exact hresumed.trans (served_advance horizon g).follows

theorem follows_pass (g : Gateway α) (millis : Nat) : Follows g (g.pass millis) := by
  have h := follows_advance (some (g.now + millis)) g
  exact ⟨Nat.le_add_right _ _, h.contexts, h.task⟩

theorem follows_enter (g : Gateway α) (context : Nat) (call : Call α) (backend : Backend) :
    Follows g (g.enter context call backend) :=
  ⟨le_rfl, rfl, fun i t ht => ⟨t, by
    rw [enter, List.getElem?_append_left (List.getElem?_eq_some_iff.1 ht).1, ht], rfl⟩⟩

theorem follows_enter_start (g : Gateway α) (context : Nat) (call : Call α) (backend : Backend) :
    Follows (g.enter context call backend) (g.start context call backend) := by
  rcases start_cases g context call backend with h | h
  · exact h.follows
  · rw [h]
    exact follows_advance _ _

/-- A context that is new changes no other one, and none that is not there is bounded. -/
theorem contextOf_addContext (g : Gateway α) (n : Nat) :
    (g.addContext .unbounded).contextOf n = g.contextOf n := by
  unfold contextOf addContext
  dsimp only
  rcases Nat.lt_trichotomy n g.contexts.length with h | h | h
  · rw [List.getElem?_append_left h]
  · rw [h, List.getElem?_concat_length, List.getElem?_eq_none le_rfl]
    rfl
  · rw [List.getElem?_eq_none h.le, List.getElem?_eq_none]
    rw [List.length_append, List.length_singleton]
    exact h

theorem contextOf_revoke {m : Nat} (h : m < g.contexts.length) (n : Nat) :
    (g.revoke m).contextOf n = if m = n then (g.contextOf n).cancel g.now else g.contextOf n := by
  unfold contextOf revoke
  dsimp only
  rw [List.getElem?_modify]
  by_cases hn : m = n
  · subst hn
    rw [List.getElem?_eq_getElem h]
    simp
  · simp [hn]

end Gateway

namespace Service

variable {s : Service}

/-! ## The context of a request -/

/-- Each request has a context of its number, which is cancelled if the request was withdrawn, and
in which its call runs. -/
structure Booked (s : Service) : Prop where
  sound : s.session.Sound
  contexts : s.gateway.contexts.length = s.session.tickets.length
  withdrawn : ∀ n, (s.gateway.contextOf n).cancelledAt.isSome = s.session.isWithdrawn n
  past : ∀ n t, (s.gateway.contextOf n).cancelledAt = some t → t ≤ s.gateway.now
  calls : ∀ p ∈ s.underWay, ∃ t, s.gateway.tasks[p.2]? = some t ∧ t.context = p.1

namespace Booked

theorem start (name : String) (pipeline : Pipeline) (backend : Backend) :
    (start name pipeline backend).Booked where
  sound := sound_empty
  contexts := rfl
  withdrawn _ := rfl
  past _ _ h := nomatch h
  calls _ hp := nomatch hp

theorem status (h : s.Booked) (n : Nat) :
    (s.gateway.contextOf n).status s.gateway.now = some .cancelled ↔
      s.session.isWithdrawn n = true := by
  rw [← h.withdrawn]
  unfold Context.status
  cases ht : (s.gateway.contextOf n).cancelledAt with
  | none =>
      rw [Clock.hasCome, Option.any_none, if_neg Bool.false_ne_true]
      split_ifs <;> simp
  | some t => simp [Clock.hasCome, h.past n t ht]

theorem of_follows (h : s.Booked) {g : Gateway Answer} (hg : s.gateway.Follows g) :
    Booked { s with gateway := g } where
  sound := h.sound
  contexts := hg.contexts ▸ h.contexts
  withdrawn n := by
    rw [Gateway.contextOf_congr hg.contexts]
    exact h.withdrawn n
  past n t ht := by
    rw [Gateway.contextOf_congr hg.contexts] at ht
    exact (h.past n t ht).trans hg.now
  calls p hp := by
    obtain ⟨t, ht, hcontext⟩ := h.calls p hp
    obtain ⟨t', ht', hcontext'⟩ := hg.task p.2 t ht
    exact ⟨t', ht', hcontext'.trans hcontext⟩

theorem accept (h : s.Booked) {id : Json} (hid : Json.Readable id) :
    Booked { s with
      session := s.session.accept id
      gateway := s.gateway.addContext .unbounded } := by
  refine ⟨h.sound.accept hid, ?_, fun n => ?_, fun n t ht => ?_, h.calls⟩
  · change (s.gateway.contexts ++ [_]).length = (s.session.accept id).tickets.length
    rw [tickets_accept, List.length_append, List.length_append, h.contexts]
    rfl
  · dsimp only
    rw [Gateway.contextOf_addContext, isWithdrawn_accept]
    exact h.withdrawn n
  · dsimp only at ht
    rw [Gateway.contextOf_addContext] at ht
    exact h.past n t ht

theorem withdraw (h : s.Booked) {m : Nat} {t : Ticket} (ht : s.session.tickets[m]? = some t) :
    Booked { s with
      session := s.session.withdraw m
      gateway := s.gateway.revoke m } := by
  have hlt : m < s.gateway.contexts.length := by
    rw [h.contexts]
    exact (List.getElem?_eq_some_iff.1 ht).1
  have hsound : (s.session.withdraw m).Sound :=
    h.sound.modify (fun _ => rfl) (fun _ hp => hp) fun _ _ _ _ _ => rfl
  refine ⟨hsound, ?_, fun n => ?_, fun n u hu => ?_, h.calls⟩
  · change (s.gateway.contexts.modify m _).length = (s.session.withdraw m).tickets.length
    rw [tickets_withdraw, List.length_modify, List.length_modify, h.contexts]
  · dsimp only
    rw [isWithdrawn_withdraw ht, ← h.withdrawn, Gateway.contextOf_revoke hlt]
    by_cases hn : m = n
    · rw [if_pos hn, decide_eq_true hn, Bool.or_true]
      unfold Context.cancel
      cases (s.gateway.contextOf n).cancelledAt <;> rfl
    · rw [if_neg hn, decide_eq_false hn, Bool.or_false]
  · change u ≤ s.gateway.now
    dsimp only at hu
    rw [Gateway.contextOf_revoke hlt] at hu
    by_cases hn : m = n
    · rw [if_pos hn] at hu
      unfold Context.cancel at hu
      cases hc : (s.gateway.contextOf n).cancelledAt with
      | none =>
          rw [hc] at hu
          exact (Option.some.inj hu).ge
      | some u' =>
          rw [hc] at hu
          exact Option.some.inj hu ▸ min_le_right _ _
    · rw [if_neg hn] at hu
      exact h.past n u hu

theorem hear (h : s.Booked) (line : String) : (s.hear line).1.Booked := by
  have hhears := hears_hear s.session line
  unfold Service.hear
  dsimp only
  generalize s.session.hear line = heard at hhears ⊢
  obtain ⟨session, heard⟩ := heard
  dsimp only at hhears ⊢
  cases hhears with
  | accepted hr => exact h.accept ((readable_of_said? hr.said).1 _ hr.id)
  | withdrawn hw hm =>
      obtain ⟨t, ht, -⟩ := h.sound.exists_ticket hw hm
      exact h.withdraw ht
  | _ => exact h

theorem hearAll (h : s.Booked) (ls : List (List UInt8)) : (s.hearAll ls).1.Booked := by
  induction ls generalizing s with
  | nil => exact h
  | cons l ls ih =>
      rw [Service.hearAll]
      split
      · exact ⟨h.sound, h.contexts, h.withdrawn, h.past, h.calls⟩
      · exact ih (h.hear _)

theorem conclude (h : s.Booked) (n : Nat) (outcome : Except Fault Json) :
    (s.conclude n outcome).1.Booked := by
  unfold Service.conclude
  cases ht : s.session.tickets[n]? with
  | none =>
      rw [Session.conclude, ht]
      exact h
  | some t =>
      constructor
      case sound => exact h.sound.conclude ht outcome
      case contexts =>
        change _ = (s.session.conclude n outcome).1.tickets.length
        rw [tickets_conclude ht, List.length_modify]
        exact h.contexts
      case withdrawn =>
        intro m
        change _ = (s.session.conclude n outcome).1.isWithdrawn m
        rw [isWithdrawn_conclude ht]
        exact h.withdrawn m
      case past => exact h.past
      case calls => exact h.calls

theorem handle (h : s.Booked) (heard : Heard) : (s.handle heard).1.Booked := by
  cases heard with
  | refused r => exact h
  | nothing => exact h
  | withdrawn n => exact h.of_follows (Gateway.follows_advance _ _)
  | accepted n r =>
      rw [Service.handle]
      split
      · exact h.conclude n _
      · rename_i c _
        have henter := h.of_follows
          (Gateway.follows_enter s.gateway n (s.pipeline.call c) s.backend)
        have hunderWay : Booked { s with
            underWay := s.underWay ++ [(n, s.gateway.tasks.length)]
            gateway := s.gateway.enter n (s.pipeline.call c) s.backend } := by
          refine ⟨henter.sound, henter.contexts, henter.withdrawn, henter.past, fun p hp => ?_⟩
          rcases List.mem_append.1 hp with hp | hp
          · exact henter.calls p hp
          · obtain rfl := List.mem_singleton.1 hp
            exact ⟨_, List.getElem?_concat_length, rfl⟩
        exact hunderWay.of_follows (Gateway.follows_enter_start _ _ _ _)

theorem handleAll (h : s.Booked) (hs : List Heard) : (s.handleAll hs).1.Booked := by
  induction hs generalizing s with
  | nil => exact h
  | cons heard hs ih => exact ih (h.handle heard)

end Booked

theorem gateway_collect (calls : List (Nat × Nat)) (s : Service) :
    (s.collect calls).1.gateway = s.gateway := by
  induction calls generalizing s with
  | nil => rfl
  | cons p calls ih =>
      obtain ⟨n, i⟩ := p
      rw [collect]
      split
      · exact ih _
      · exact ih _
      · exact ih s

namespace Booked

theorem collect (h : s.Booked) (calls : List (Nat × Nat))
    (hcalls : ∀ p ∈ calls, ∃ t, s.gateway.tasks[p.2]? = some t ∧ t.context = p.1) :
    (s.collect calls).1.Booked := by
  induction calls generalizing s with
  | nil => exact h
  | cons p calls ih =>
      obtain ⟨n, i⟩ := p
      rw [List.forall_mem_cons] at hcalls
      rw [Service.collect]
      split
      · exact ih (h.conclude n _) hcalls.2
      · exact ih h hcalls.2
      · obtain ⟨hsound, hcontexts, hwithdrawn, hpast, hunderWay⟩ := ih h hcalls.2
        refine ⟨hsound, hcontexts, hwithdrawn, hpast, List.forall_mem_cons.2 ⟨?_, hunderWay⟩⟩
        rw [gateway_collect]
        exact hcalls.1

theorem gather (h : s.Booked) : s.gather.1.Booked :=
  collect (s := { s with underWay := [] }) ⟨h.sound, h.contexts, h.withdrawn, h.past, nofun⟩
    s.underWay h.calls

theorem serve (h : s.Booked) (ls : List (List UInt8)) : (s.serve ls).1.Booked :=
  ((h.hearAll ls).handleAll _).gather

theorem run {s₀ : Service} {input : List UInt8} {responses : List Response} (h₀ : s₀.Booked)
    (h : Run s₀ input s responses) : s.Booked := by
  induction h with
  | start => exact h₀
  | @feed input s responses h bytes ih =>
      unfold Service.feed
      split
      · exact ih
      · have hread : Booked { s with unread := (lines (s.unread ++ bytes)).2 } :=
          ⟨ih.sound, ih.contexts, ih.withdrawn, ih.past, ih.calls⟩
        exact hread.serve _
  | pass h millis ih => exact (ih.of_follows (Gateway.follows_pass _ millis)).gather

end Booked

/-! ## Services and exchanges -/

/-- The books of a service are those of an exchange, in which the requests are handled whose calls
are under way. -/
theorem Run.exists_reachable {name : String} {pipeline : Pipeline} {backend : Backend}
    {input : List UInt8} {responses : List Response} {ls : List (List UInt8)}
    (h : Run (Service.start name pipeline backend) input s responses)
    (hfault : (s.hearAll ls).1.fault = none) :
    ∃ texts e, Exchange.Reachable name texts e ∧ e.session = (s.hearAll ls).1.session ∧
      ∀ p ∈ (s.hearAll ls).1.underWay, ∃ r, (p.1, r) ∈ e.running := by
  obtain ⟨later, -, hheard⟩ := steps_hearAll name hfault
  obtain ⟨-, -, texts, -, hmatched⟩ := h.matched rfl (fault_hearAll_iff.1 hfault).1
  have hcalls : (Service.start name pipeline backend).Calls [] := ⟨rfl, fun _ hp => nomatch hp⟩
  obtain ⟨e₁, waiting, hsteps₁, he₁, hcalls₁⟩ := hmatched later _ [] 0 hcalls
    (Exchange.rests_start _)
  rw [← List.append_nil later] at he₁
  obtain ⟨e₂, hsteps₂, he₂⟩ := hheard [] e₁ waiting _ he₁
  refine ⟨texts ++ later, e₂, hsteps₁.trans hsteps₂, he₂.session, fun p hp => ?_⟩
  have hnumber : p.1 ∈ waiting.map Prod.fst := by
    rw [hcalls₁.numbers, ← (hearAll_keeps ls s).1]
    exact List.mem_map_of_mem hp
  obtain ⟨⟨n, r⟩, hr, hn⟩ := List.mem_map.1 hnumber
  exact ⟨r, hn ▸ he₂.running (List.mem_append_left _ hr)⟩

end Service

namespace Exchange

variable {name : String} {lines : List String} {e : Exchange}

/-- An identifier stands for the request that was accepted with it last, unless a request with it has
concluded since; so it stands for a request that is handled, and that is what a line withdraws that
names it. If no identifier is used again while a request with it is handled, it stands for every
request that is. In a service, the call of a request runs in a context that is cancelled as soon as
the request is withdrawn. -/
theorem withdraws_what_is_known (h : Reachable name lines e) :
    (∀ id, e.session.find? id =
      (eventsOf e.session e.record id.text).getLast?.bind Event.accepted?) ∧
    (∀ id n, e.session.find? id = some n →
      ∃ r id', (n, r) ∈ e.running ∧ r.id = some id' ∧ id'.text = id.text) ∧
    (∀ line w id, Withdraws line w id → ∀ n, (e.session.hear line).1.isWithdrawn n =
      (e.session.isWithdrawn n || decide (e.session.find? id = some n))) ∧
    (Unshared e.record → ∀ n r id, (n, r) ∈ e.running → r.id = some id →
      e.session.find? id = some n) ∧
    ∀ pipeline backend input s responses ls,
      Service.Run (.start name pipeline backend) input s responses →
      let s' := (s.hearAll ls).1
      s'.fault = none →
      ∃ texts e', Reachable name texts e' ∧ e'.session = s'.session ∧
        ∀ p ∈ s'.underWay, (∃ r, (p.1, r) ∈ e'.running) ∧
          (∃ t, s'.gateway.tasks[p.2]? = some t ∧ t.context = p.1) ∧
          ((s'.gateway.contextOf p.1).status s'.gateway.now = some .cancelled ↔
            s'.session.isWithdrawn p.1 = true) := by
  have hs := h.sound
  have hf := hs.recorded.faithful
  refine ⟨hs.recorded.find?_eq, fun id n hn => ?_, fun line w id hw n => ?_,
    fun hunshared n r id hrun hid => ?_, fun pipeline backend input s responses ls hrun => ?_⟩
  · obtain ⟨t, ht, htext, hopen⟩ := hf.sound.known _ (mem_known_of_find? hn)
    obtain ⟨line, r, hheard, hr⟩ := hf.exists_request ht
    have hnot : e.record.any (Event.concludes n) = false := by
      rw [← hf.concluded, isConcluded, ht]
      exact hopen
    exact ⟨r, t.id, (hs.running n r).2 ⟨⟨line, hheard⟩, hnot⟩, hr.id, htext⟩
  · exact isWithdrawn_hear hf.sound hw n
  · obtain ⟨⟨line, hheard⟩, hnot⟩ := (hs.running n r).1 hrun
    obtain ⟨t, ht, hr⟩ := hf.requests line n r hheard
    obtain rfl : t.id = id := Option.some.inj (hr.id.symm.trans hid)
    refine hs.recorded.find?_of_open hunshared ht ?_
    rwa [← hf.concluded, isConcluded, ht] at hnot
  · intro s' hfault
    obtain ⟨texts, e', hreachable, hsession, hrunning⟩ := hrun.exists_reachable hfault
    have hbooked : s'.Booked := ((Service.Booked.start name pipeline backend).run hrun).hearAll ls
    exact ⟨texts, e', hreachable, hsession, fun p hp =>
      ⟨hrunning p hp, hbooked.calls p hp, hbooked.status p.1⟩⟩

/-- A call of a tool, with the identifier with which the server may be asked whether it is there. -/
def callLine : String :=
  "\x7b\"jsonrpc\":\"2.0\",\"id\":1,\"method\":\"tools/call\",\"params\":\x7b\"name\":\"list_tables\"\x7d\x7d"

/-- Withdraws what has that identifier. -/
def cancelLine : String :=
  "\x7b\"jsonrpc\":\"2.0\",\"method\":\"notifications/cancelled\",\"params\":\x7b\"requestId\":1\x7d\x7d"

def callRequest : Request :=
  ⟨"2.0", some (.num (.int 1)), "tools/call", some (.obj [("name", .str "list_tables")])⟩

theorem requests_callLine : Requests callLine callRequest (.num (.int 1)) := by
  refine ⟨?_, by decide, rfl⟩
  rw [said?_of_trim callLine (by decide +kernel) (by decide +kernel)]
  cbv

theorem withdraws_cancelLine : Withdraws cancelLine ⟨"2.0", none, "notifications/cancelled",
    some (.obj [("requestId", .num (.int 1))])⟩ (.num (.int 1)) := by
  refine ⟨?_, rfl, _, rfl, by cbv⟩
  rw [said?_of_trim cancelLine (by decide +kernel) (by decide +kernel)]
  cbv

/-- As long as the identifier is not used again, it stands for the call, which can be withdrawn. -/
theorem withdraws_what_is_known_callLine :
    ∃ e, Reachable "sqlward" [callLine, pingLine, cancelLine] e ∧ (0, callRequest) ∈ e.running ∧
      e.session.find? (.num (.int 1)) = some 0 ∧
      (e.session.hear cancelLine).1.isWithdrawn 0 = true := by
  let e := (start [callLine, pingLine, cancelLine]).hear callLine [pingLine, cancelLine]
  have hreachable : Reachable "sqlward" [callLine, pingLine, cancelLine] e :=
    .single (.hear rfl rfl)
  have hheard : Session.empty.hear callLine =
      (Session.empty.accept (.num (.int 1)), .accepted 0 callRequest) :=
    hear_of_requests requests_callLine
  have hrun : (0, callRequest) ∈ e.running := by
    change _ ∈ [] ++ toHandle (Session.empty.hear callLine).2
    rw [hheard]
    exact List.mem_singleton_self _
  have hunshared : Unshared e.record := by
    intro before after line n r hes l m r' hmem
    cases before with
    | nil => cases hmem
    | cons x before => simp [e, Exchange.hear, start] at hes
  obtain ⟨-, -, hwithdraw, hknown, -⟩ := withdraws_what_is_known hreachable
  have hfind := hknown hunshared 0 callRequest _ hrun rfl
  refine ⟨e, hreachable, hrun, hfind, ?_⟩
  rw [hwithdraw _ _ _ withdraws_cancelLine, hfind]
  simp

/-- Once a request with the same identifier has concluded, the call is out of reach: its identifier
stands for nothing, and the line that names it does not withdraw it. -/
theorem call_out_of_reach : ∃ e,
    Reachable "sqlward" [callLine, pingLine, cancelLine] e ∧ e.unread = [cancelLine] ∧
      (0, callRequest) ∈ e.running ∧ callRequest.id = some (.num (.int 1)) ∧
      (∃ w, Withdraws cancelLine w (.num (.int 1))) ∧
      e.session.find? (.num (.int 1)) = none ∧
      (e.session.hear cancelLine).1.isWithdrawn 0 = false := by
  obtain ⟨e₁, h₁, he₁⟩ := (rests_start [callLine, pingLine, cancelLine]).hear "sqlward"
  rw [hear_of_requests requests_callLine] at he₁
  obtain ⟨e₂, h₂, he₂⟩ := he₁.hear "sqlward"
  rw [hear_of_requests (requests_ping (by decide +kernel))] at he₂
  obtain ⟨e₃, h₃, he₃⟩ : ∃ e₃, _ ∧ Exchange.Rests e₃ _ _ ([(0, callRequest)] ++ []) _ :=
    he₂.conclude (mayEnd_ping "sqlward" rfl)
  have hreachable : Reachable "sqlward" [callLine, pingLine, cancelLine] e₃ :=
    (h₁.trans h₂).trans h₃
  have hfind : e₃.session.find? (.num (.int 1)) = none := by
    rw [he₃.session]
    decide +kernel
  have hopen : e₃.session.isWithdrawn 0 = false := by
    rw [he₃.session]
    decide +kernel
  refine ⟨e₃, hreachable, he₃.unread, he₃.running List.mem_cons_self, rfl,
    ⟨_, withdraws_cancelLine⟩, hfind, ?_⟩
  rw [isWithdrawn_hear hreachable.sound.recorded.faithful.sound withdraws_cancelLine, hopen, hfind]
  rfl

end Exchange

end SqlGate
