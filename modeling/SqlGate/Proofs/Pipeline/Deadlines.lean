import Mathlib.Algebra.Ring.Nat
import Mathlib.Data.List.Induction
import SqlGate.Proofs.Guardrail.Turns
import SqlGate.Proofs.Pipeline.Mediation
import SqlGate.Proofs.Pipeline.Waiting

/-!
# Deadlines

Whatever is begun in a call is begun with a limit, and is over by that and by the deadline of the
caller (`Punctual`), but for the end of a transaction, which only the context of the caller bounds.
A guardrail has as long as its entry says, from the instant at which it is asked; so a phase takes no
longer than its guardrails have together (`AllDue.clock_le`). The opening of a transaction and its
statement share one limit, the one that was selected before both (`Entered`).

All instants are whole milliseconds, and a limit that is no whole number of them is rounded up.
-/

namespace SqlGate

variable {c : Context} {b : Backend} {t s limit : Instant}

theorem Clock.after?_eq_some_iff {d : Duration} :
    Clock.after? t d = some s ↔ t / 1000 + d.secs < Clock.seconds ∧ s = t + Clock.ceilMillis d := by
  unfold Clock.after?
  split_ifs with h <;> simp [h, eq_comm]

theorem Clock.le_of_after? {d : Duration} (h : Clock.after? t d = some s) : t ≤ s := by
  obtain ⟨-, rfl⟩ := Clock.after?_eq_some_iff.1 h
  exact Nat.le_add_right t _

/-- The earlier of two instants is no later than either. -/
theorem Clock.earlier_le {x y : Option Instant} {e : Instant} (h : Clock.earlier x y = some e) :
    (∀ i, x = some i → e ≤ i) ∧ ∀ i, y = some i → e ≤ i := by
  cases x with
  | none => exact ⟨nofun, fun i hi => (Option.some.inj (h.symm.trans hi)).le⟩
  | some i =>
      cases y with
      | none => exact ⟨fun i' hi => (Option.some.inj (h.symm.trans hi)).le, nofun⟩
      | some j =>
          obtain rfl : min i j = e := Option.some.inj h
          exact ⟨fun i' hi => Option.some.inj hi ▸ min_le_left i j,
            fun j' hj => Option.some.inj hj ▸ min_le_right i j⟩

/-! ## What is over in time -/

/-- What was begun at an instant is over at a later one, by a limit and by the deadline of a context.
What is begun too late is over at once. -/
structure Punctual (c : Context) (limit t s : Instant) : Prop where
  le : t ≤ s
  byLimit : s ≤ max t limit
  byDeadline : ∀ d, c.deadline = some d → s ≤ max t d

theorem Punctual.refl (c : Context) (limit t : Instant) : Punctual c limit t t :=
  ⟨le_rfl, le_max_left t limit, fun d _ => le_max_left t d⟩

theorem Punctual.trans {s' : Instant} (h : Punctual c limit t s) (h' : Punctual c limit s s') :
    Punctual c limit t s' where
  le := h.le.trans h'.le
  byLimit := h'.byLimit.trans (max_le h.byLimit (le_max_right t limit))
  byDeadline := fun d hd => (h'.byDeadline d hd).trans
    (max_le (h.byDeadline d hd) (le_max_right t d))

namespace Context

theorem lt_deadline {d : Instant} (hs : c.status s = none) (hd : c.deadline = some d) : s < d := by
  have hend := (c.status_eq_none_iff s).1 hs
  unfold endsAt at hend
  exact ((Clock.lt_earlier_iff s _ _).1 hend).2 d hd

/-- Waiting comes out by the deadline of its context. -/
theorem le_deadline_of_await {due : Option Instant} {o : Option Ending} {d : Instant}
    (hw : c.await none t due = some (s, o)) (hd : c.deadline = some d) : s ≤ max t d := by
  cases o with
  | none => exact le_max_of_le_right (lt_deadline (status_of_await_done hw) hd).le
  | some why =>
      rcases await_late hw with rfl | ⟨-, hend⟩
      · exact le_max_left s d
      · exact le_max_of_le_right ((Clock.earlier_le hend).2 d hd)

/-- A context with a limit has a deadline, which is no later than the limit and than the deadline of
the context that it comes from. -/
theorem exists_deadline_within (c : Context) (limit : Instant) :
    ∃ d, (c.within (some limit)).deadline = some d ∧ d ≤ limit ∧
      ∀ d', c.deadline = some d' → d ≤ d' := by
  cases h : (c.within (some limit)).deadline with
  | none => cases hc : c.deadline <;> simp [within, Clock.earlier, hc] at h
  | some d => exact ⟨d, rfl, (Clock.earlier_le h).2 limit rfl, (Clock.earlier_le h).1⟩

theorem punctual_of_await {due : Option Instant} {o : Option Ending}
    (hdue : ∀ d, due = some d → t ≤ d)
    (hw : (c.within (some limit)).await none t due = some (s, o)) : Punctual c limit t s := by
  obtain ⟨d, hd, hlimit, hdeadline⟩ := c.exists_deadline_within limit
  have hle := le_deadline_of_await hw hd
  exact ⟨(comes_of_await hdue hw).le, hle.trans (max_le_max_left t hlimit),
    fun d' hd' => hle.trans (max_le_max_left t (hdeadline d' hd'))⟩

/-- What does not come before the end of a live context is given up there. -/
theorem await_of_le {due : Option Instant} {e : Instant} (hs : c.status t = none)
    (he : c.endsAt = some e) (hdue : ∀ d, due = some d → e ≤ d) :
    c.await none t due = some (e, c.status e) := by
  rw [await_of_live hs]
  unfold race
  rw [he]
  cases due with
  | none => rfl
  | some d => exact if_pos (hdue d rfl)

/-- A context that is not cancelled by its deadline expires there. -/
theorem expires {d : Instant} (hd : c.deadline = some d)
    (hc : Clock.hasCome c.cancelledAt d = false) :
    c.endsAt = some d ∧ c.status d = some .expired := by
  constructor
  · unfold endsAt
    rw [hd]
    cases hk : c.cancelledAt with
    | none => rfl
    | some k => exact congrArg some (min_eq_right ((Clock.hasCome_eq_false_iff _ d).1 hc k hk).le)
  · unfold status
    rw [hc, hd]
    simp [Clock.hasCome]

end Context

theorem le_of_delay {delay : Option Nat} {d : Instant} (h : delay.map (t + ·) = some d) : t ≤ d := by
  obtain ⟨n, -, rfl⟩ := Option.map_eq_some_iff.1 h
  exact Nat.le_add_right t n

/-! ## Guardrails -/

namespace Guardrail

variable {g : Guardrail} {phase : Phase} {text : String} {turns : List (Entry × Turn)}

theorem Decides.punctual {d : Except Fault Response}
    (h : Decides (c.within (some limit)) g text t d s) : Punctual c limit t s := by
  cases h with
  | atOnce => exact .refl c limit t
  | inTime _ hw => exact Context.punctual_of_await (fun _ => le_of_delay) hw
  | late _ hw => exact Context.punctual_of_await (fun _ => le_of_delay) hw

/-- The time that the guardrails of some turns had, those that were asked. -/
def allowance (turns : List (Entry × Turn)) : Nat :=
  (turns.map fun x => match x with
    | (e, .shown ..) => Clock.ceilMillis e.timeout
    | _ => 0).sum

theorem clock_append_singleton (start : Instant) (past : List (Entry × Turn)) (x : Entry × Turn) :
    clock start (past ++ [x]) = (decidedAt? x).getD (clock start past) := by
  unfold clock
  rw [List.filterMap_append, List.filterMap_cons]
  cases decidedAt? x <;> simp

/-- A guardrail that is asked is handed a context whose deadline is the earlier one of the caller's
deadline and the end of its own time, which begins when it is asked. -/
theorem AllDue.decides (h : AllDue c phase text t turns) {e : Entry} {asked decided : Instant}
    {payload : String} {d : Except Fault Response}
    (hmem : (e, .shown asked payload d decided) ∈ turns) :
    ∃ limit, Clock.after? asked e.timeout = some limit ∧
      Decides (c.within (some limit)) e.guardrail payload asked d decided := by
  obtain ⟨i, hi⟩ := List.getElem?_of_mem hmem
  obtain ⟨rfl, limit, hlimit, hd⟩ := (h i e _ hi).decides _ _ _ _ rfl
  exact ⟨limit, hlimit, hd⟩

theorem AllDue.of_append {past later : List (Entry × Turn)}
    (h : AllDue c phase text t (past ++ later)) : AllDue c phase text t past := by
  intro i e turn hi
  obtain ⟨hlt, -⟩ := List.getElem?_eq_some_iff.1 hi
  have hdue := h i e turn ((List.getElem?_append_left hlt).trans hi)
  rwa [List.take_append_of_le_length hlt.le] at hdue

/-- The guardrails of a phase take no longer than they have together. -/
theorem AllDue.clock_le (h : AllDue c phase text t turns) : clock t turns ≤ t + allowance turns := by
  induction turns using List.reverseRecOn with
  | nil => exact le_rfl
  | append_singleton past x ih =>
      have hpast := ih h.of_append
      have hsum : allowance (past ++ [x]) = allowance past + allowance [x] := by
        simp [allowance]
      obtain ⟨e, turn⟩ := x
      rw [clock_append_singleton, hsum]
      cases turn with
      | shown asked payload d decided =>
          have hdue := h past.length e (.shown asked payload d decided) (by simp)
          rw [List.take_left] at hdue
          obtain ⟨rfl, limit, hlimit, hd⟩ := hdue.decides _ _ _ _ rfl
          have hle := hd.punctual.byLimit
          obtain ⟨-, rfl⟩ := Clock.after?_eq_some_iff.1 hlimit
          rw [max_eq_right (Nat.le_add_right _ _)] at hle
          have hone : allowance [(e, .shown (clock t past) payload d decided)] =
              Clock.ceilMillis e.timeout := List.sum_singleton
          rw [hone, ← Nat.add_assoc]
          exact hle.trans (Nat.add_le_add_right hpast _)
      | spared => exact hpast.trans (Nat.add_le_add_left (Nat.le_add_right _ _) t)
      | uncountable => exact hpast.trans (Nat.add_le_add_left (Nat.le_add_right _ _) t)

end Guardrail

/-! ## Transactions -/

namespace Pipeline

variable {p : Pipeline} {sql : String}

theorem Returned.punctual {op : Backend.Operation} {reply : Reply op.Answer}
    (h : Returned (c.within (some limit)) b op t reply s) : Punctual c limit t s := by
  cases h with
  | answered hw => exact Context.punctual_of_await (fun _ => le_of_delay) hw
  | late hw => exact Context.punctual_of_await (fun _ => le_of_delay) hw

/-- What is done with the rows that a statement gave, inside the transaction. -/
def review (p : Pipeline) (x : Backend.Execution) : Attempt QueryResult := do
  let r := QueryResult.ofExecution x
  if p.guardrails.after.isEmpty then return r
  else
    match QueryResult.ofText (← p.consult .after r.text) with
    | .ok r => return r
    | .error why => throw (.unreadableResult why)

/-- A statement is executed in a transaction, and then its rows are reviewed. -/
theorem run_inTransaction_returned {until' : Instant} {span : Duration}
    {reply : Reply (Backend.Operation.execute sql).Answer}
    (hs : (c.within (some until')).status t = none)
    (hx : Returned (c.within (some until')) b (.execute sql) t reply s) :
    Work.run c b none (p.inTransaction span until' sql).run t =
      Work.preceded [⟨t, .asked (.execute sql)⟩]
        (Work.run c b none (Work.onward p.review (ofReply span reply)) s) := by
  have hexecute := run_perform_live span hs hx
  have hbind := Work.run_attempt_bind c b none (perform span (some until') (.execute sql)) p.review t
  rw [hexecute] at hbind
  exact hbind

/-- What is done once a statement has come out: its rows are reviewed, and the transaction ends. -/
def settle (p : Pipeline) (span : Duration) (v : Except Fault Backend.Execution) :
    Attempt QueryResult :=
  ExceptT.lift (Work.onward p.review v) >>= p.close span

/-- How far a text gets in the time that was selected for it at an instant: what the database is
asked by then, what is left to do, and when that is. The transaction is opened and the text executed
until one and the same instant. -/
inductive Entered (p : Pipeline) (c : Context) (b : Backend) (sql : String) (t until' : Instant) :
    List Work.Entry → Attempt QueryResult → Instant → Prop where
  | expired {e : Context.Ending} {why : Fault} (hs : (c.within (some until')).status t = some e)
    (hr : ofReply (p.timeouts.select sql) (.late e : Reply Unit) = .error why) :
    Entered p c b sql t until' [] (throw why) t
  | unopened {opened : Reply (Backend.Operation.begin (p.options sql)).Answer} {s : Instant}
    {why : Fault} (hs : (c.within (some until')).status t = none)
    (hb : Returned (c.within (some until')) b (.begin (p.options sql)) t opened s)
    (hr : ofReply (p.timeouts.select sql) opened = .error why) :
    Entered p c b sql t until' [⟨t, .asked (.begin (p.options sql))⟩] (throw why) s
  | executed {opened : Reply (Backend.Operation.begin (p.options sql)).Answer}
    {reply : Reply (Backend.Operation.execute sql).Answer} {t₁ s : Instant}
    (hs : (c.within (some until')).status t = none)
    (hb : Returned (c.within (some until')) b (.begin (p.options sql)) t opened t₁)
    (ho : ofReply (p.timeouts.select sql) opened = .ok ())
    (hx : Returned (c.within (some until')) b (.execute sql) t₁ reply s) :
    Entered p c b sql t until'
      [⟨t, .asked (.begin (p.options sql))⟩, ⟨t₁, .asked (.execute sql)⟩]
      (p.settle (p.timeouts.select sql) (ofReply (p.timeouts.select sql) reply)) s

theorem Entered.punctual {until' : Instant} {seen : List Work.Entry} {next : Attempt QueryResult}
    (h : p.Entered c b sql t until' seen next s) : Punctual c until' t s := by
  cases h with
  | expired => exact .refl c until' t
  | unopened hs hb => exact hb.punctual
  | executed hs hb ho hx => exact hb.punctual.trans hx.punctual

/-- A transaction whose time is selected at an instant is run as far as that goes, and from there
on. -/
theorem run_transact (p : Pipeline) (c : Context) (b : Backend) {until' : Instant}
    (hl : Clock.after? t (p.timeouts.select sql) = some until') :
    ∃ seen next s, p.Entered c b sql t until' seen next s ∧
      Work.run c b none (p.transact sql).run t =
        Work.preceded seen (Work.run c b none next.run s) := by
  have hd : Work.run c b none (deadline (p.timeouts.select sql)).run t =
      ([], .ended t (some (.ok until'))) := Work.run_deadline_some c b none false _ hl
  unfold transact
  rw [Work.run_attempt_bind_ok _ hd]
  cases hs : (c.within (some until')).status t with
  | some e =>
      obtain ⟨why, hwhy⟩ := ofReply_late (α := Unit) (p.timeouts.select sql) e
      have hb : Work.run c b none (p.enter until' sql).run t =
          ([], .ended t (some (.error why))) := by
        rw [← hwhy]
        exact Work.run_perform_over c b none _ hs
      refine ⟨[], _, t, .expired hs hwhy, ?_⟩
      rw [Work.run_attempt_bind_error _ hb]
      rfl
  | none =>
      obtain ⟨opened, t₁, hb⟩ :=
        exists_returned b (.begin (p.options sql)) t (c.endsAt_within_isSome until')
      have hrun := run_perform_live (p.timeouts.select sql) hs hb
      cases ho : ofReply (p.timeouts.select sql) opened with
      | error why =>
          rw [ho] at hrun
          have hbegin : Work.run c b none (p.enter until' sql).run t =
            ([⟨t, .asked (.begin (p.options sql))⟩], .ended t₁ (some (.error why))) := hrun
          refine ⟨_, _, t₁, .unopened hs hb ho, ?_⟩
          rw [Work.run_attempt_bind_error _ hbegin]
          rfl
      | ok u =>
          rw [ho] at hrun
          have hbegin : Work.run c b none (p.enter until' sql).run t =
            ([⟨t, .asked (.begin (p.options sql))⟩], .ended t₁ (some (.ok u))) := hrun
          obtain ⟨reply, s, hx⟩ :=
            exists_returned b (.execute sql) t₁ (c.endsAt_within_isSome until')
          refine ⟨_, _, s, .executed hs hb ho hx, ?_⟩
          rw [Work.run_attempt_bind_ok _ hbegin, run_lift_bind,
            run_inTransaction_returned (hb.status ho) hx, Work.andThen_preceded, settle,
            run_lift_bind]
          rfl

/-- An operation that would be done at the deadline or later is not done. -/
theorem exists_late {op : Backend.Operation} {d : Instant} (hd : c.deadline = some d)
    (hs : c.status t = none) (hdue : ∀ i, (b.behaviour op).delay.map (t + ·) = some i → d ≤ i) :
    ∃ why s, Returned c b op t (.late why) s ∧ s ≤ d ∧
      (Clock.hasCome c.cancelledAt d = false → why = .expired ∧ s = d) := by
  obtain ⟨e, he⟩ : ∃ e, c.endsAt = some e := by
    unfold Context.endsAt
    rw [hd]
    cases c.cancelledAt <;> exact ⟨_, rfl⟩
  have hle : e ≤ d := (Clock.earlier_le he).2 d hd
  have hw := Context.await_of_le hs he fun i hi => hle.trans (hdue i hi)
  obtain ⟨why, hwhy⟩ := Option.isSome_iff_exists.1 (c.status_endsAt_isSome he)
  refine ⟨why, e, .late (hwhy ▸ hw), hle, fun hc => ?_⟩
  obtain ⟨hend, hexpired⟩ := Context.expires hd hc
  obtain rfl := Option.some.inj (he.symm.trans hend)
  exact ⟨Option.some.inj (hwhy.symm.trans hexpired), rfl⟩

/-- All deadlines of a call are kept. A guardrail is handed the earlier one of the deadline of the
caller and the end of its own time, from the instant at which it is asked, and decides by then, so
that a phase takes no longer than those who were asked have together. A transaction is opened and
its statement executed by one instant, which is the end of the time that was selected for it, and by
the deadline of the caller. And what the database would do at the very instant of a deadline comes
too late. -/
theorem deadlines_kept (p : Pipeline) (c : Context) (b : Backend) :
    (∀ phase text t, ∃ turns v, turns.map (·.1) = p.guardrails.entries phase ∧
      Guardrail.AllDue c phase text t turns ∧
      Work.run c b none (p.consult phase text).run t =
        (turns.filterMap Guardrail.event? ++
          Guardrail.remains phase (Guardrail.clock t turns) v.isNone,
          .ended (Guardrail.clock t turns) v) ∧
      (∀ e asked payload d decided, (e, .shown asked payload d decided) ∈ turns →
        ∃ limit, Clock.after? asked e.timeout = some limit ∧
          limit = asked + Clock.ceilMillis e.timeout ∧
          Guardrail.Decides ⟨Clock.earlier c.deadline (some limit), c.cancelledAt⟩ e.guardrail payload
            asked d decided ∧
          decided ≤ limit ∧ ∀ d, c.deadline = some d → decided ≤ max asked d) ∧
      Guardrail.clock t turns ≤ t + Guardrail.allowance turns) ∧
    (∀ sql t until', Clock.after? t (p.timeouts.select sql) = some until' →
      until' = t + Clock.ceilMillis (p.timeouts.select sql) ∧
      ∃ seen next s, p.Entered c b sql t until' seen next s ∧
        Work.run c b none (p.transact sql).run t =
          Work.preceded seen (Work.run c b none next.run s) ∧
        t ≤ s ∧ s ≤ until' ∧ ∀ d, c.deadline = some d → s ≤ max t d) ∧
    ∀ span limit op t d, (c.within limit).deadline = some d → (c.within limit).status t = none →
      (∀ i, (b.behaviour op).delay.map (t + ·) = some i → d ≤ i) →
      ∃ why s, Work.run c b none (perform span limit op).run t =
          ([⟨t, .asked op⟩], .ended s (some (ofReply span (.late why)))) ∧
        s ≤ d ∧ (Clock.hasCome c.cancelledAt d = false → why = .expired ∧ s = d) := by
  refine ⟨fun phase text t => ?_, fun sql t until' hl => ?_, fun span limit op t d hd hs hdue => ?_⟩
  · obtain ⟨seen, v, t', hcourse, hrun⟩ := run_consult p c b phase text t
    obtain ⟨turns, heveryone, hdue, rfl, -, rfl⟩ := hcourse.exists_turns
    refine ⟨turns, v.map (·.mapError Fault.guardrail), heveryone, hdue, ?_,
      fun e asked payload d decided hmem => ?_, hdue.clock_le⟩
    · rw [hrun]
      cases v <;> rfl
    · obtain ⟨limit, hlimit, hdecides⟩ := hdue.decides hmem
      obtain ⟨hle, hbyLimit, hbyDeadline⟩ := hdecides.punctual
      rw [max_eq_right (Clock.le_of_after? hlimit)] at hbyLimit
      exact ⟨limit, hlimit, (Clock.after?_eq_some_iff.1 hlimit).2, hdecides, hbyLimit, hbyDeadline⟩
  · obtain ⟨seen, next, s, hentered, hrun⟩ := run_transact p c b hl
    obtain ⟨hle, hbyLimit, hbyDeadline⟩ := hentered.punctual
    rw [max_eq_right (Clock.le_of_after? hl)] at hbyLimit
    exact ⟨(Clock.after?_eq_some_iff.1 hl).2, seen, next, s, hentered, hrun, hle, hbyLimit,
      hbyDeadline⟩
  · obtain ⟨why, s, hreturned, hle, hexact⟩ := exists_late hd hs hdue
    exact ⟨why, s, run_perform_live span hs hreturned, hle, hexact⟩

/-- A statement for which there is a second, in a context that has 700 milliseconds left, at a database
that hangs. -/
theorem deadlines_kept_stuck : ∃ seen next s,
    alone.Entered ⟨some 700, none⟩ stuck "SELECT 1" 0 1000 seen next s ∧
      Work.run ⟨some 700, none⟩ stuck none (alone.transact "SELECT 1").run 0 =
        Work.preceded seen (Work.run ⟨some 700, none⟩ stuck none next.run s) ∧ s ≤ 700 := by
  obtain ⟨-, seen, next, s, hentered, hrun, -, -, hdeadline⟩ :=
    (deadlines_kept alone ⟨some 700, none⟩ stuck).2.1 "SELECT 1" 0 1000 rfl
  exact ⟨seen, next, s, hentered, hrun, hdeadline 700 rfl⟩

/-- A configuration with a limit of one microsecond. -/
def hasty : Config := { single with timeouts := ⟨some ⟨1000⟩, []⟩ }

def hurried : Pipeline := { alone with timeouts := ⟨[], ⟨1000⟩⟩ }

/-- A statement that hangs is given up after a millisecond, which is longer than its limit. -/
theorem limit_exceeded :
    ofConfig (fun _ _ _ => .notStarted "") hasty = .ok hurried ∧
    ¬ ∀ (c : Context) (b : Backend) (sql : String) (t until' s : Instant) (seen : List Work.Entry)
      (next : Attempt QueryResult), Clock.after? t (hurried.timeouts.select sql) = some until' →
        hurried.Entered c b sql t until' seen next s →
          (s - t) * 1000000 ≤ (hurried.timeouts.select sql).nanos := by
  refine ⟨rfl, fun h => ?_⟩
  have hbegin : Returned (Context.unbounded.within (some 1)) stuck
      (.begin (hurried.options "SELECT 1")) 0 (.answered (.ok ())) 0 := .answered rfl
  have hexecute : Returned (Context.unbounded.within (some 1)) stuck
      (.execute "SELECT 1") 0 (.late .expired) 1 := .late rfl
  have hle := h .unbounded stuck "SELECT 1" 0 1 1 _ _ rfl (.executed rfl hbegin rfl hexecute)
  exact absurd hle (by decide)

end Pipeline

end SqlGate
