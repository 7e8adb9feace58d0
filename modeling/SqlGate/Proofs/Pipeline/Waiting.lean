import SqlGate.Proofs.Gateway.Stages
import SqlGate.Proofs.Pipeline.Bound
import SqlGate.Proofs.Work.Journey
import SqlGate.Proofs.Work.Limited

/-!
# Calls that wait, and calls whose context ends

## What calls wait for

A call asks the guardrails and the database for what it needs with a limit, and ends a transaction
without one (`limited_call`). So wherever a call waits, a timer is set that ends the wait, or it
waits for the end of a transaction; and it waits for ever, in possession of its slot, only in a
context that never ends, at a database that never ends the transaction (`waits_with_timer`).
-/

namespace SqlGate

open Work

namespace Guardrail

theorem limited_consultAll (phase : Phase) (es : List Entry) (text : String) :
    (consultAll phase es text).run.Limited := by
  induction es generalizing text with
  | nil => exact trivial
  | cons e es ih =>
      have hentry : (e.consult phase text).run.Limited := fun _ _ => trivial
      unfold consultAll
      split
      · exact limited_attempt_bind hentry ih
      · exact ih text

end Guardrail

namespace Pipeline

section Limits

variable (p : Pipeline)

theorem limited_consult (phase : Guardrail.Phase) (text : String) :
    (p.consult phase text).run.Limited :=
  limited_bind (Guardrail.limited_consultAll phase _ text) fun _ => trivial

/-- Until an instant at most, unless it is the end of a transaction. -/
theorem limited_perform (limit : Duration) {until' : Option Instant} {op : Backend.Operation}
    (h : until'.isNone = op.endsTransaction) : (perform limit until' op).run.Limited :=
  ⟨h, fun _ => trivial⟩

theorem limited_deadline (span : Duration) : (deadline span).run.Limited := fun _ => trivial

theorem limited_inTransaction (limit : Duration) (until' : Instant) (sql : String) :
    (p.inTransaction limit until' sql).run.Limited := by
  unfold inTransaction
  refine limited_attempt_bind (limited_perform limit rfl) fun x => ?_
  split
  · exact trivial
  · refine limited_attempt_bind (p.limited_consult .after _) fun text => ?_
    split <;> exact trivial

theorem limited_close (limit : Duration) (d : Except Fault QueryResult) :
    (p.close limit d).run.Limited := by
  cases d with
  | error why => exact ⟨rfl, fun _ => trivial⟩
  | ok r => exact limited_attempt_bind (limited_perform limit rfl) fun _ => trivial

theorem limited_transact (sql : String) : (p.transact sql).run.Limited := by
  unfold transact
  refine limited_attempt_bind (limited_deadline _) fun until' => ?_
  refine limited_attempt_bind (limited_perform _ rfl) fun _ => ?_
  let inside : Attempt (Except Fault QueryResult) :=
    ExceptT.lift (p.inTransaction (p.timeouts.select sql) until' sql).run
  have hinside : inside.run.Limited :=
    limited_bind (p.limited_inTransaction _ until' sql) fun _ => trivial
  exact limited_attempt_bind hinside fun d => p.limited_close _ d

theorem limited_statement (sql : String) : (p.statement sql).run.Limited := by
  unfold statement
  refine limited_attempt_bind (p.limited_consult .before sql) fun text => ?_
  split
  · exact trivial
  · exact p.limited_transact text

theorem limited_catalog {op : Backend.Operation} (h : op.endsTransaction = false) :
    (p.catalog op).run.Limited :=
  limited_attempt_bind (limited_deadline _) fun _ => limited_perform _ h.symm

theorem limited_call (call : Tool.Call) : (p.call call).work.Limited := by
  cases call with
  | executeSql sql => exact limited_bind (p.limited_statement sql) fun _ => trivial
  | listTables schema => exact limited_bind (p.limited_catalog rfl) fun _ => trivial
  | describeTable table schema => exact limited_bind (p.limited_catalog rfl) fun _ => trivial

/-- A call that is left to itself waits for ever exactly if its context never ends and it has asked
for the end of a transaction that never comes. -/
theorem waitsByEnding_call (call : Tool.Call) (context : Context) (b : Backend) (start : Instant) :
    WaitsByEnding context b (run context b none (p.call call).work start) :=
  (p.limited_call call).waitsByEnding

end Limits

variable {programs : Guardrail.Programs} {c : Config} {p : Pipeline}

/-- Wherever a call waits that has its slot, a timer is set that ends the wait, or it waits for the
end of a transaction. With time it ends and gives its slot back, unless its context never ends and
the database never ends the transaction. Whoever is over has no slot. -/
theorem waits_with_timer (h : ofConfig programs c = .ok p) (guardrails : Guardrail.Chain) :
    let p' := { p with guardrails }
    ∀ g : Gateway Answer, g.Reachable p'.Serves p'.pool → ∀ i t, g.tasks[i]? = some t →
      (t.stage.isOver = true → i ∉ g.pool.holders) ∧
      ∀ pending, t.stage = .working pending →
        ((pending.timer (g.contextOf t.context)).isSome = true ∨
          ∃ op time, op.endsTransaction = true ∧ pending.Awaits t.backend op time) ∧
        ((∃ time v, g.finish.stage? i = some (.ended time v)) ∧ i ∉ g.finish.pool.holders ∨
          (g.contextOf t.context).endsAt = none ∧ ∃ pending' op time,
            g.finish.stage? i = some (.working pending') ∧ op.endsTransaction = true ∧
            (t.backend.behaviour op).delay = none ∧ pending'.Awaits t.backend op time) := by
  intro p'
  have hpool := (ofConfig_eq_ok_iff.1 h).2.pool
  have hvalid : p.pool.Valid := Admission.Pool.valid_of_ofCapacity hpool
  have hline : p.pool.line = [] := Admission.Pool.line_of_ofCapacity hpool
  have hlimited : ∀ call, p'.Serves call → call.work.Limited := by
    rintro _ ⟨call, rfl⟩
    exact p'.limited_call call
  refine fun g hg i t ht => ⟨hg.not_mem_holders hvalid hline ht, fun pending hp => ?_⟩
  have hatWork : g.AtWork p'.Serves fun b pending => pending.Limited b :=
    hg.atWork (fun call hcall _ _ _ _ _ hr => ((hlimited call hcall).of_run hr).1)
      fun _ _ hpending _ _ _ _ hr => (hpending.of_resume hr).1
  have hmem := List.mem_of_getElem? ht
  have hpending := hatWork.waits t hmem pending hp
  refine ⟨hpending.timer_isSome_or _, ?_⟩
  obtain ⟨stage, hstage, ⟨time, v, rfl⟩ | ⟨pending', rfl, hwaits⟩⟩ :=
    Gateway.finish_of_working ht hp
  · have hfinish : g.finish.Reachable p'.Serves p'.pool := hg.tail .finish
    have hgone := hfinish.not_mem_holders hvalid hline hstage rfl
    exact .inl ⟨⟨time, v, by rw [Gateway.stage?, hstage]; rfl⟩, hgone⟩
  · obtain ⟨hlimited', hendless⟩ : pending'.Limited t.backend ∧
        pending'.IsEndless (g.contextOf t.context) := by
      -- Only serving those who wait lets work begin anew, and that has limits as well.
      rcases hwaits with hr | ⟨time, hr⟩
      · exact (hpending.of_resume hr).imp_right fun h => h rfl
      · exact ((hlimited _ (hatWork.comes t hmem)).of_run hr).imp_right fun h => h rfl
    obtain ⟨hends, op, time, hop, hdelay, hawaits⟩ := hlimited'.exists_of_endless hendless
    exact .inr ⟨hends, pending', op, time, by rw [Gateway.stage?, hstage]; rfl, hop, hdelay, hawaits⟩

/-- A database that opens transactions at once, and takes its time to end them. -/
def opening (execution : Backend.Behaviour (Except Backend.Fault Backend.Execution))
    (ending : Option Nat) : Backend where
  behaviour op := match op with
    | .begin _ => ⟨some 0, .ok ()⟩
    | .execute _ => execution
    | .commit => ⟨ending, .ok ()⟩
    | .rollback => ⟨ending, .ok ()⟩
    | _ => ⟨none, .error ⟨[]⟩⟩

theorem run_opening : ∃ (rest : Reply Backend.Execution → Work Answer)
    (last : Backend.Fault → Reply Unit → Work Answer),
    (∀ execution ending, run .unbounded (opening execution ending) (some 0)
      (alone.execute "SELECT 1").work 0 =
        preceded [⟨0, .asked (.begin ⟨false, .ofSecs 1⟩)⟩]
          (run .unbounded (opening execution ending) (some 0)
            (.perform (.execute "SELECT 1") (some 1000) rest) 0)) ∧
    ∀ why, rest (.answered (.error why)) = .perform .rollback none (last why) := by
  obtain ⟨next, rest, last, hwork, hnext, hlast⟩ := rollback_alone
  refine ⟨rest 1000, last, fun execution ending => ?_, hlast 1000⟩
  have hbegin : run .unbounded (opening execution ending) (some 0)
        (.perform (.begin ⟨false, .ofSecs 1⟩) (some 1000) (next 1000)) 0 =
      preceded [⟨0, .asked (.begin ⟨false, .ofSecs 1⟩)⟩]
        (run .unbounded (opening execution ending) (some 0) (next 1000 (.answered (.ok ()))) 0) :=
    run_perform_answered .unbounded _ (some 0) _ rfl rfl
  rw [hwork, run_deadline_some .unbounded _ (some 0) false _ rfl]
  exact hbegin.trans (by rw [hnext])

/-- A gateway with one slot, at which a statement is executed in a context that nothing bounds. -/
def executing (b : Backend) : Gateway Answer :=
  (Gateway.ofPool alone.pool).start 0 (alone.call (.executeSql "SELECT 1")) b

theorem executing_eq {b : Backend} {entries : List Entry} {pending : Pending Answer}
    (h : run .unbounded b (some 0) (alone.execute "SELECT 1").work 0 =
      (entries, .waiting pending)) :
    executing b = ⟨0, ⟨1, 0, [0], []⟩, [],
      [⟨alone.call (.executeSql "SELECT 1"), 0, b, .working pending⟩], entries⟩ := by
  let g₁ : Gateway Answer :=
    (Gateway.ofPool alone.pool).enter 0 (alone.call (.executeSql "SELECT 1")) b
  have hbegin : (Gateway.Motion.still g₁).begin (some 0) 0 0 =
      (Gateway.Motion.still g₁).record 0
        (run .unbounded b (some 0) (alone.execute "SELECT 1").work 0) := rfl
  have hstart : executing b =
      let m := (Gateway.Motion.still g₁).begin (some 0) 0 0
      let m := m.departures.foldl Gateway.Motion.leave m
      { m.gateway with log := m.gateway.log ++ m.entries } := rfl
  rw [hstart, hbegin, h]
  rfl

/-- The database does not get done with the statement, so the wait for it is given up. -/
theorem waits_with_timer_opening :
    let g := executing (opening ⟨none, .ok ⟨[], [], 0⟩⟩ (some 0))
    ∃ t pending, g.tasks[0]? = some t ∧ t.stage = .working pending ∧
      (pending.timer (g.contextOf 0)).isSome = true ∧
      (∃ time v, g.finish.stage? 0 = some (.ended time v)) ∧ 0 ∉ g.finish.pool.holders := by
  intro g
  let b := opening ⟨none, .ok ⟨[], [], 0⟩⟩ (some 0)
  obtain ⟨rest, last, hrun, -⟩ := run_opening
  let pending : Pending Answer :=
    .busy (some 1000) none (rest (.answered (.ok ⟨[], [], 0⟩))) fun e => rest (.late e)
  have hexecute : run .unbounded b (some 0) (.perform (.execute "SELECT 1") (some 1000) rest) 0 =
      ([⟨0, .asked (.execute "SELECT 1")⟩], .waiting pending) :=
    run_perform_waiting .unbounded _ (some 0) _ rfl rfl
  have hg := executing_eq ((hrun _ (some 0)).trans (congrArg _ hexecute))
  have hreach : g.Reachable alone.Serves alone.pool :=
    .single (.start 0 b ⟨.executeSql "SELECT 1", rfl⟩)
  have ht : g.tasks[0]? = some ⟨alone.call (.executeSql "SELECT 1"), 0, b, .working pending⟩ :=
    congrArg (·.tasks[0]?) hg
  obtain ⟨-, hwaits⟩ := waits_with_timer ofConfig_single ⟨[], []⟩ g hreach 0 _ ht
  obtain ⟨htimer | ⟨op, time, hop, limit, next, hawaits⟩, hfinish⟩ := hwaits pending rfl
  · refine ⟨_, pending, ht, rfl, htimer, ?_⟩
    rcases hfinish with hended | ⟨-, pending', op, time, -, hop, hdelay, -⟩
    · exact hended
    · cases op <;> cases hop <;> cases hdelay
  · have hdue := (Pending.busy.inj hawaits).2.1
    cases op <;> cases hop <;> cases hdue

/-- The statement fails, and the database does not get done with the rollback. No timer is set, and
the call keeps the only slot for ever. -/
theorem rollback_keeps_slot :
    let g := executing (opening ⟨some 0, .error ⟨["boom"]⟩⟩ none)
    g.Reachable alone.Serves alone.pool ∧
      ∃ pending, g.stage? 0 = some (.working pending) ∧ pending.timer (g.contextOf 0) = none ∧
        g.finish.stage? 0 = some (.working pending) ∧ g.finish.available = 0 := by
  intro g
  let b := opening ⟨some 0, .error ⟨["boom"]⟩⟩ none
  obtain ⟨rest, last, hrun, hrest⟩ := run_opening
  let pending : Pending Answer :=
    .busy none none (last ⟨["boom"]⟩ (.answered (.ok ()))) fun e => last ⟨["boom"]⟩ (.late e)
  have hrollback : run .unbounded b (some 0) (.perform .rollback none (last ⟨["boom"]⟩)) 0 =
      ([⟨0, .asked .rollback⟩], .waiting pending) :=
    run_perform_waiting .unbounded _ (some 0) _ rfl rfl
  have hexecute : run .unbounded b (some 0) (.perform (.execute "SELECT 1") (some 1000) rest) 0 =
      preceded [⟨0, .asked (.execute "SELECT 1")⟩]
        (run .unbounded b (some 0) (rest (.answered (.error ⟨["boom"]⟩))) 0) :=
    run_perform_answered .unbounded _ (some 0) _ rfl rfl
  rw [hrest, hrollback] at hexecute
  have hg : g = _ := executing_eq ((hrun _ none).trans (congrArg _ hexecute))
  refine ⟨.single (.start 0 b ⟨.executeSql "SELECT 1", rfl⟩), ?_⟩
  rw [hg]
  exact ⟨pending, rfl, rfl, rfl, rfl⟩

end Pipeline

end SqlGate

/-!
## Calls whose context ends

The work of a call never rests: it asks the database and the guardrails for a few things and is
done. So what holds of every call on its way holds of the calls of a pipeline, whatever the database
and the guardrails do and whenever the context ends (`finished_starts_nothing`).
-/

namespace SqlGate

open Work

namespace Pipeline

variable (p : Pipeline)

/-- Whatever the database and the guardrails do and whenever the context of a call is cancelled or
reaches its deadline, the database is asked only before that. From then on it is asked for nothing
any more, so what was not committed is not committed. The call comes to its end by then, and what it
was waiting for is given up, unless that came before. -/
theorem finished_starts_nothing (call : Tool.Call) (c : Context) (b : Backend) (start : Instant)
    {j : Journey Answer} (hj : Journey.Reaches b (.begin c b (p.call call).work start) j) :
    (∀ x ∈ j.asked, start ≤ x.time ∧ c.status x.time = none ∧
      ∀ k, j.context.cancelledAt = some k → x.time ≤ k) ∧
    (j.IsOver → ∀ j', Journey.Reaches b j j' → j'.asked = j.asked ∧
      ((∀ x ∈ j.seen, x.event ≠ .asked .commit) → ∀ x ∈ j'.seen, x.event ≠ .asked .commit)) ∧
    ∀ e later, j.context.endsAt = some e → e ≤ later → j.now ≤ later → ∀ pending,
      j.progress = .waiting pending →
        (∃ t v, (j.pass b later).progress = .ended t v ∧ t ≤ max j.now e) ∧
        ∀ limit due finished givenUp, pending = .busy limit due finished givenUp →
          (∀ d, due = some d → e ≤ d) → ∃ why t, t ≤ max j.now e ∧
            (j.pass b later).progress = (run j.context b (some later) (givenUp why) t).2 := by
  have hs : j.Sound c start := hj.sound (Journey.sound_begin (p.limited_call call).restless)
  refine ⟨fun x hx => ?_, fun hover j' hj' => ?_, fun e later he hle hnow pending hp => ?_⟩
  · obtain ⟨hstart, -, hlive, hk⟩ := hs.asked x hx
    exact ⟨hstart, hlive, hk⟩
  · obtain ⟨hasked, -⟩ := hj'.asked_eq hs hover
    refine ⟨hasked, fun hnone x hx hc => ?_⟩
    have hx' : x ∈ j.asked := hasked ▸ mem_requests.2 ⟨hx, .commit, hc⟩
    exact hnone x (mem_requests.1 hx').1 hc
  · refine ⟨hs.pass_over he hle hnow hp, fun limit due finished givenUp hbusy hdue => ?_⟩
    obtain ⟨why, t, ht, hresume⟩ :=
      Pending.resume_late (b := b) limit finished givenUp he hle hnow hdue
    refine ⟨why, t, ht, ?_⟩
    rw [Journey.pass, hp, hbusy, ← hresume]

/-- A database that opens transactions and then hangs. -/
def stuck : Backend where
  behaviour op := match op with
    | .begin _ => ⟨some 0, .ok ()⟩
    | _ => ⟨none, .error ⟨[]⟩⟩

/-- A statement hangs and its context is cancelled after five milliseconds: nothing is committed,
then or later, and the call is at its end. -/
theorem finished_starts_nothing_stuck : ∃ j : Journey Answer,
    Journey.Reaches stuck (.begin .unbounded stuck (alone.call (.executeSql "SELECT 1")).work 0) j ∧
    j.asked = [⟨0, .asked (.begin ⟨false, .ofSecs 1⟩)⟩, ⟨0, .asked (.execute "SELECT 1")⟩] ∧
    j.IsOver ∧
    (∀ j', Journey.Reaches stuck j j' → ∀ x ∈ j'.seen, x.event ≠ .asked .commit) ∧
    ∃ t v, (j.pass stuck 5).progress = .ended t v ∧ t ≤ 5 := by
  obtain ⟨next, rest, hwork, hnext⟩ := execute_alone
  have hbegin : run .unbounded stuck (some 0)
        (.perform (.begin ⟨false, .ofSecs 1⟩) (some 1000) (next 1000)) 0 =
      preceded [⟨0, .asked (.begin ⟨false, .ofSecs 1⟩)⟩]
        (run .unbounded stuck (some 0) (next 1000 (.answered (.ok ()))) 0) :=
    run_perform_answered .unbounded stuck (some 0) _ rfl rfl
  have hexecute : run .unbounded stuck (some 0)
        (.perform (.execute "SELECT 1") (some 1000) (rest 1000)) 0 =
      ([⟨0, .asked (.execute "SELECT 1")⟩], .waiting (.busy (some 1000) none
        (rest 1000 (.answered (.error ⟨[]⟩))) fun e => rest 1000 (.late e))) :=
    run_perform_waiting .unbounded stuck (some 0) _ rfl rfl
  let begun : Journey Answer :=
    .begin .unbounded stuck (alone.call (.executeSql "SELECT 1")).work 0
  have hbegun : begun = ⟨.unbounded, 0,
      [⟨0, .asked (.begin ⟨false, .ofSecs 1⟩)⟩, ⟨0, .asked (.execute "SELECT 1")⟩],
      .waiting (.busy (some 1000) none (rest 1000 (.answered (.error ⟨[]⟩)))
        fun e => rest 1000 (.late e))⟩ := by
    have hrun : run .unbounded stuck (some 0) (alone.execute "SELECT 1").work 0 =
        preceded [⟨0, .asked (.begin ⟨false, .ofSecs 1⟩)⟩] (run .unbounded stuck (some 0)
          (.perform (.execute "SELECT 1") (some 1000) (rest 1000)) 0) := by
      rw [hwork, run_deadline_some .unbounded stuck (some 0) false _ rfl]
      exact hbegin.trans (by rw [hnext])
    rw [hexecute] at hrun
    change Journey.begin .unbounded stuck (alone.execute "SELECT 1").work 0 = _
    rw [Journey.begin, hrun]
    rfl
  let cancelled : Journey Answer := (begun.pass stuck 5).cancel
  have hpassed : begun.pass stuck 5 = { begun with now := 5 } := by
    rw [hbegun]
    rfl
  have hreach : Journey.Reaches stuck begun cancelled :=
    .tail (.single (.pass 5 (by rw [hbegun]; exact Nat.zero_le 5))) .cancel
  have hcancelled : cancelled = ⟨⟨none, some 5⟩, 5, begun.seen, begun.progress⟩ := by
    change (begun.pass stuck 5).cancel = _
    rw [hpassed, hbegun]
    rfl
  have hover : cancelled.IsOver := by
    rw [hcancelled]
    rfl
  have hseen : ∀ x ∈ cancelled.seen, x.event ≠ .asked .commit := by
    rw [hcancelled, hbegun]
    simp
  obtain ⟨-, hnone, hend⟩ :=
    finished_starts_nothing alone (.executeSql "SELECT 1") .unbounded stuck 0 hreach
  refine ⟨cancelled, hreach, ?_, hover, fun j' hj' => (hnone hover j' hj').2 hseen, ?_⟩
  · rw [hcancelled, hbegun]
    rfl
  · have hp : cancelled.progress = .waiting (.busy (some 1000) none
        (rest 1000 (.answered (.error ⟨[]⟩))) fun e => rest 1000 (.late e)) := by
      rw [hcancelled, hbegun]
    obtain ⟨t, v, ht, hle⟩ := (hend 5 5 (by rw [hcancelled]; rfl) le_rfl
      (by rw [hcancelled]) _ hp).1
    exact ⟨t, v, ht, hle.trans (by rw [hcancelled]; exact le_rfl)⟩

end Pipeline

end SqlGate
