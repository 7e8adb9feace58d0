import SqlGate.Pipeline
import SqlGate.Proofs.Except
import SqlGate.Proofs.Gateway.Busy
import SqlGate.Proofs.Gateway.Slots

/-!
# The bound on the work at the database

Every call of a pipeline keeps order with transactions: it opens one only after the guardrails
before the statement, does in it the statement, asks the guardrails after it, and ends it before it
is done. So at every instant the calls that ask the database or own a transaction have a slot each,
and are not more than there are slots (`busy_le_capacity`).
-/

namespace SqlGate

open Work

namespace Guardrail

theorem orderly_entry (e : Entry) (phase : Phase) (text : String) :
    (e.consult phase text).run.Orderly (Owning phase.inTransaction) phase.inTransaction :=
  ⟨rfl, fun _ _ => rfl⟩

theorem orderly_consultAll (phase : Phase) (es : List Entry) (text : String) :
    (consultAll phase es text).run.Orderly (Owning phase.inTransaction) phase.inTransaction := by
  induction es generalizing text with
  | nil => exact rfl
  | cons e es ih =>
      unfold consultAll
      split
      · refine orderly_attempt_bind (orderly_entry e phase text) (fun text' o ho => ?_)
          fun why o ho => ho
        rw [ho]
        exact ih text'
      · exact ih text

end Guardrail

namespace Pipeline

variable (p : Pipeline)

def Serves (call : Call Answer) : Prop := ∃ c : Tool.Call, call = p.call c

theorem orderly_consult (phase : Guardrail.Phase) (text : String) :
    (p.consult phase text).run.Orderly (Owning phase.inTransaction) phase.inTransaction := by
  change ((p.guardrails.consult phase text).run >>= _).Orderly _ _
  rw [orderly_bind]
  exact Guardrail.orderly_consultAll phase _ text

theorem orderly_deadline (span : Duration) :
    (deadline span).run.Orderly (Owning false) false := ⟨rfl, fun _ => rfl⟩

/-- The transaction is owned if its beginning has succeeded. -/
theorem orderly_enter (until' : Instant) (sql : String) :
    (p.enter until' sql).run.Orderly (fun d o => o = d.isOk) false := by
  refine ⟨rfl, fun r => ?_⟩
  match r with
  | .answered (.ok ()) => exact rfl
  | .answered (.error why) => exact rfl
  | .late .expired => exact rfl
  | .late .cancelled => exact rfl

theorem orderly_inTransaction (limit : Duration) (until' : Instant) (sql : String) :
    (p.inTransaction limit until' sql).run.Orderly (Owning true) true := by
  have hexecute : (perform limit (some until') (.execute sql)).run.Orderly (Owning true) true :=
    ⟨rfl, fun _ => rfl⟩
  unfold inTransaction
  refine orderly_attempt_bind hexecute (fun x o ho => ?_) fun why o ho => ho
  rw [ho]
  split
  · exact rfl
  · refine orderly_attempt_bind (p.orderly_consult .after _) (fun text o ho => ?_)
      fun why o ho => ho
    rw [ho]
    split <;> exact rfl

theorem orderly_close (limit : Duration) (d : Except Fault QueryResult) :
    (p.close limit d).run.Orderly (Owning false) true := by
  cases d with
  | error why => exact ⟨rfl, fun _ => rfl⟩
  | ok r =>
      have hcommit : (perform limit none .commit).run.Orderly (Owning false) true :=
        ⟨rfl, fun _ => rfl⟩
      exact orderly_attempt_bind hcommit (fun _ o ho => ho) fun why o ho => ho

theorem orderly_transact (sql : String) :
    (p.transact sql).run.Orderly (Owning false) false := by
  unfold transact
  refine orderly_attempt_bind (orderly_deadline _) (fun until' o ho => ?_) fun why o ho => ho
  rw [ho]
  refine orderly_attempt_bind (p.orderly_enter until' sql) (fun _ o ho => ?_) fun why o ho => ho
  rw [ho]
  -- What is done in the transaction cannot fail as an attempt: its failure is what is closed.
  let inside : Attempt (Except Fault QueryResult) :=
    ExceptT.lift (p.inTransaction (p.timeouts.select sql) until' sql).run
  have hinside : inside.run.Orderly (fun d o => o = true ∧ d.isOk = true) true := by
    rw [ExceptT.run_lift, map_eq_pure_bind, orderly_bind]
    exact (p.orderly_inTransaction _ until' sql).mono fun d o ho => ⟨ho, rfl⟩
  refine orderly_attempt_bind hinside (fun d o ho => ?_) fun why o ho => ?_
  · rw [ho.1]
    exact p.orderly_close _ d
  · cases ho.2

theorem orderly_statement (sql : String) :
    (p.statement sql).run.Orderly (Owning false) false := by
  unfold statement
  refine orderly_attempt_bind (p.orderly_consult .before sql) (fun text o ho => ?_)
    fun why o ho => ho
  rw [ho]
  split
  · exact rfl
  · exact p.orderly_transact text

theorem orderly_catalog (op : Backend.Operation) (hop : ∀ r o, op.owned r o = o)
    (hin : op.isInside = false) : (p.catalog op).run.Orderly (Owning false) false := by
  unfold catalog
  refine orderly_attempt_bind (orderly_deadline _) (fun until' o ho => ?_) fun why o ho => ho
  rw [ho]
  exact ⟨hin.symm, fun r => hop r false⟩

/-- Every call keeps order, and owns nothing in the end. -/
theorem Serves.orderly {call : Call Answer} (h : p.Serves call) :
    call.work.Orderly (Owning false) false := by
  obtain ⟨c, rfl⟩ := h
  cases c with
  | executeSql sql =>
      change ((p.statement sql).run >>= _).Orderly _ _
      rw [orderly_bind]
      exact p.orderly_statement sql
  | listTables schema =>
      change ((p.catalog _).run >>= _).Orderly _ _
      rw [orderly_bind]
      exact p.orderly_catalog (.listTables schema) (fun _ _ => rfl) rfl
  | describeTable table schema =>
      change ((p.catalog _).run >>= _).Orderly _ _
      rw [orderly_bind]
      exact p.orderly_catalog (.describeTable schema table) (fun _ _ => rfl) rfl

/-! ## Pipelines of configurations -/

variable {programs : Guardrail.Programs} {c : Config}

/-- The parts of a pipeline are those of a configuration. -/
structure BuiltFrom (programs : Guardrail.Programs) (c : Config) (p : Pipeline) : Prop where
  policy : c.policy = p.policy
  pool : Admission.Pool.ofCapacity c.admissionCapacity = .ok p.pool
  guardrails : Guardrail.Chain.ofConfig programs c.guardrails = .ok p.guardrails
  timeouts : TimeoutSelector.ofConfig c.timeouts = .ok p.timeouts
  sanitizer : Sanitizer.ofConfig c.sanitize = .ok p.sanitizer
  diagnostics : Diagnostics.ofConfig c.diagnostics = .ok p.diagnostics
  maxResultBytes : c.limits.maxResultBytes = p.maxResultBytes

theorem ofConfig_eq_ok_iff {p : Pipeline} :
    ofConfig programs c = .ok p ↔ c.validate = .ok () ∧ p.BuiltFrom programs c := by
  unfold ofConfig
  simp only [bind_eq_ok_iff, mapError_eq_ok_iff]
  constructor
  · rintro ⟨⟨⟩, hc, pool, hpool, guardrails, hg, timeouts, ht, sanitizer, hs, diagnostics, hd, h⟩
    cases h
    exact ⟨hc, rfl, hpool, hg, ht, hs, hd, rfl⟩
  · intro ⟨hc, h⟩
    refine ⟨(), hc, _, h.pool, _, h.guardrails, _, h.timeouts, _, h.sanitizer, _, h.diagnostics, ?_⟩
    rw [h.policy, h.maxResultBytes]
    rfl

/-- Whatever the guardrails are, the calls that are inside an operation on the database or in
possession of a transaction are never more than the capacity. Each of them has one slot, which it
had before it became busy and has until after it is busy no more, and asks for what belongs into a
transaction if and only if it owns one. All slots are free once all calls have ended. -/
theorem busy_le_capacity {p : Pipeline} (h : ofConfig programs c = .ok p)
    (guardrails : Guardrail.Chain) :
    let p' := { p with guardrails }
    (∀ t : Traffic Answer, t.Reachable p'.Serves p'.pool →
      t.busy.length ≤ c.admissionCapacity ∧
      (∀ t', Traffic.Step p'.Serves t t' → ∀ i, i ∈ t.busy ∨ i ∈ t'.busy →
        t.pool.holders.count i = 1 ∧ t'.pool.holders.count i = 1) ∧
      (∀ v ∈ t.visits, ∀ op next, v.phase = .asking op next → v.inTransaction = op.isInside) ∧
      ((∀ v ∈ t.visits, v.phase.isGone = true) → t.pool.free = c.admissionCapacity)) ∧
    ∀ g : Gateway Answer, g.Reachable p'.Serves p'.pool →
      (∃ t : Traffic Answer, t.Reachable p'.Serves p'.pool ∧ g.Shown [] t) ∧
      ((∀ task ∈ g.tasks, task.stage.isOver = true) → g.available = c.admissionCapacity) := by
  have hpool : Admission.Pool.ofCapacity c.admissionCapacity = .ok p.pool :=
    (ofConfig_eq_ok_iff.1 h).2.pool
  have hvalid : p.pool.Valid := Admission.Pool.valid_of_ofCapacity hpool
  have hline : p.pool.line = [] := Admission.Pool.line_of_ofCapacity hpool
  have hcap : p.pool.capacity = c.admissionCapacity :=
    Admission.Pool.capacity_of_ofCapacity hpool
  intro p'
  have hserves : ∀ call, p'.Serves call → call.work.Orderly (Owning false) false :=
    fun call hcall => hcall.orderly
  constructor
  · intro t ht
    have hs : t.Sound := ht.sound hvalid hline
    have ho : t.Orderly := ht.orderly hserves
    have htcap : t.pool.capacity = c.admissionCapacity := ht.capacity.trans hcap
    refine ⟨htcap ▸ hs.length_busy_le ho, fun t' hstep i hi => ?_, fun v hv op next hφ => ?_,
      fun hg => htcap ▸ hs.free_of_gone hg⟩
    · obtain ⟨hbefore, hafter⟩ := hs.mem_holders_of_step ho hstep hi
      exact ⟨hs.valid.count_holders hbefore, (hs.step hstep).valid.count_holders hafter⟩
    · obtain ⟨i, hi⟩ := List.getElem?_of_mem hv
      exact ((Visit.orderly_asking hφ).1 (ho i v hi)).1
  · intro g hg
    obtain ⟨t, ht, hshown⟩ := hg.exists_shown hvalid hline
    refine ⟨⟨t, ht, hshown⟩, fun hover => ?_⟩
    rw [hshown.available_eq (ht.sound hvalid hline) hover, ht.capacity, ← hcap]

/-- A configuration with one slot, which leaves everything else out that it can. -/
def single : Config :=
  { Config.initial with
    timeouts := ⟨some (.ofSecs 1), []⟩
    limits := ⟨1048576, some 1⟩ }

def alone : Pipeline :=
  ⟨.strict, ⟨[], []⟩, ⟨[], .ofSecs 1⟩, ⟨[]⟩, ⟨[]⟩, ⟨1, 1, [], []⟩, 1048576⟩

theorem ofConfig_single : ofConfig (fun _ _ _ => .notStarted "") single = .ok alone := rfl

theorem check_alone : alone.policy.check "SELECT 1" = .ok () := by
  change Policy.Rules.strict.check "SELECT 1" = .ok ()
  decide +kernel

/-- A call that executes a statement opens a transaction, executes it, and rolls back if that
fails. -/
theorem rollback_alone : ∃ (next : Instant → Reply Unit → Work Answer)
    (rest : Instant → Reply Backend.Execution → Work Answer)
    (last : Backend.Fault → Reply Unit → Work Answer),
    (alone.execute "SELECT 1").work = .deadline (.ofSecs 1) false (fun t =>
      .perform (.begin ⟨false, .ofSecs 1⟩) (some t) (next t)) ∧
    (∀ t, next t (.answered (.ok ())) = .perform (.execute "SELECT 1") (some t) (rest t)) ∧
    ∀ t why, rest t (.answered (.error why)) = .perform .rollback none (last why) := by
  have hstatement : alone.statement "SELECT 1" = alone.transact "SELECT 1" := by
    have hconsult : alone.consult .before "SELECT 1" = pure "SELECT 1" := rfl
    rw [statement, hconsult, pure_bind, check_alone]
  unfold execute
  rw [hstatement]
  exact ⟨_, _, _, rfl, fun _ => rfl, fun _ _ => rfl⟩

theorem execute_alone : ∃ (next : Instant → Reply Unit → Work Answer)
    (rest : Instant → Reply Backend.Execution → Work Answer),
    (alone.execute "SELECT 1").work = .deadline (.ofSecs 1) false (fun t =>
      .perform (.begin ⟨false, .ofSecs 1⟩) (some t) (next t)) ∧
    ∀ t, next t (.answered (.ok ())) = .perform (.execute "SELECT 1") (some t) (rest t) := by
  obtain ⟨next, rest, -, hwork, hnext, -⟩ := rollback_alone
  exact ⟨next, rest, hwork, hnext⟩

/-- One call executes a statement in its transaction, and another one waits. -/
theorem busy_le_capacity_alone :
    ∃ t : Traffic Answer, t.Reachable alone.Serves alone.pool ∧ t.busy = [0] ∧ t.waiting = [1] ∧
      t.busy.length ≤ single.admissionCapacity ∧
      ∀ t', Traffic.Step alone.Serves t t' → t'.pool.holders.count 0 = 1 := by
  obtain ⟨next, rest, hwork, hnext⟩ := execute_alone
  let first (φ : Phase Answer) (owned : Bool) : Visit Answer :=
    ⟨alone.execute "SELECT 1", 0, φ, owned⟩
  let second : Visit Answer := .fresh (alone.listTables none) 0
  let at_ (v : Visit Answer) : Traffic Answer := ⟨⟨1, 0, [0], [1]⟩, [], [v, second]⟩
  have start₁ : Traffic.Step alone.Serves (.ofPool alone.pool)
      ⟨⟨1, 0, [0], []⟩, [], [first .queued false]⟩ := .start 0 ⟨.executeSql "SELECT 1", rfl⟩
  have start₂ : Traffic.Step alone.Serves ⟨⟨1, 0, [0], []⟩, [], [first .queued false]⟩
      (at_ (first .queued false)) := .start 0 ⟨.listTables none, rfl⟩
  have begin₁ : Traffic.Step alone.Serves (at_ (first .queued false))
      (at_ (first (.working (alone.execute "SELECT 1").work) false)) :=
    .begin (t := at_ (first .queued false)) (i := 0) (v := first .queued false) rfl rfl
      List.mem_cons_self
  -- From its slot to its statement the call makes four moves.
  have deadline₁ := Visit.Move.deadline
    (v := first (.working (alone.execute "SELECT 1").work) false) 0 (congrArg Phase.working hwork)
  have ask₁ := Visit.Move.ask
    (v := first (.working (.perform (.begin ⟨false, .ofSecs 1⟩) (some 0) (next 0))) false) rfl
  have opened₁ := Visit.Move.reply (v := first (.asking (.begin ⟨false, .ofSecs 1⟩) (next 0)) false)
    (.answered (.ok ()) : Reply (Backend.Operation.begin ⟨false, .ofSecs 1⟩).Answer) rfl
  have execute₁ := Visit.Move.ask (v := first (.working (next 0 (.answered (.ok ())))) true)
    (congrArg Phase.working (hnext 0))
  have move : ∀ {v w}, Visit.Move v w → Traffic.Step alone.Serves (at_ v) (at_ w) :=
    fun {v w} h => .move (t := at_ v) (i := 0) rfl h
  have hreach : (at_ (first (.asking (.execute "SELECT 1") (rest 0)) true)).Reachable alone.Serves
      alone.pool :=
    .tail (.tail (.tail (.tail (.tail (.tail (.single start₁) start₂) begin₁)
      (move deadline₁)) (move ask₁)) (move opened₁)) (move execute₁)
  obtain ⟨hle, hslot, -⟩ := (busy_le_capacity ofConfig_single ⟨[], []⟩).1 _ hreach
  exact ⟨_, hreach, rfl, rfl, hle, fun t' hstep => (hslot t' hstep 0 (.inl List.mem_cons_self)).2⟩

end Pipeline

end SqlGate
