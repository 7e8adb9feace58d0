import SqlGate.Proofs.Gateway.Apart
import SqlGate.Proofs.Pipeline.Bound
import SqlGate.Proofs.Work.Delay

/-!
# Calls next to each other

Calls at one pipeline share its slots, and nothing else. A call that has to wait for its slot does
what it would have done at once, only later: all limits on its time are counted from when it has the
slot (`delayed_call`). So whatever calls come together, in whatever order, each answers what it
answers alone (`finish_of_gathers`). The exception is a limit so long that its end cannot be counted
from the later instant; there the call breaks off (`finish_breaks_off`).
-/

namespace SqlGate

open Work

namespace Pipeline

variable (p : Pipeline)

/-- The limits on time that a call may come across. -/
def HasLimit (span : Duration) : Prop :=
  span = p.timeouts.default ∨ (∃ r ∈ p.timeouts.rules, span = r.2) ∨
    ∃ phase, ∃ e ∈ p.guardrails.entries phase, span = e.timeout

theorem hasLimit_select (sql : String) : p.HasLimit (p.timeouts.select sql) := by
  unfold TimeoutSelector.select
  cases hr : p.timeouts.rules.find? fun r => r.1.isMatch sql with
  | none => exact .inl rfl
  | some r => exact .inr (.inl ⟨r, List.mem_of_find?_eq_some hr, rfl⟩)

/-! ## Calls begun later -/

section Delay

variable (k : Nat)

theorem delayed_consult (phase : Guardrail.Phase) (text : String) :
    Delayed p.HasLimit k (p.consult phase text).run (p.consult phase text).run := by
  have hall : ∀ es : List Guardrail.Entry, (∀ e ∈ es, e ∈ p.guardrails.entries phase) →
      ∀ text, Delayed p.HasLimit k (Guardrail.consultAll phase es text).run
        (Guardrail.consultAll phase es text).run := by
    intro es
    induction es with
    | nil => exact fun _ text => .done _
    | cons e es ih =>
        intro hes text
        have hrest := ih fun x hx => hes x (List.mem_cons_of_mem e hx)
        have hlimit : p.HasLimit e.timeout :=
          .inr (.inr ⟨phase, e, hes e List.mem_cons_self, rfl⟩)
        have hentry : Delayed p.HasLimit k (e.consult phase text).run (e.consult phase text).run :=
          .deadline _ hlimit fun t => .consult _ _ t fun d => .done _
        unfold Guardrail.consultAll
        split
        · exact hentry.attempt_bind hrest
        · exact hrest text
  exact (hall _ (fun _ he => he) text).bind fun d => .done _

theorem delayed_perform (limit : Duration) (until' : Option Instant) (op : Backend.Operation) :
    Delayed p.HasLimit k (perform limit until' op).run
      (perform limit (Clock.delay k until') op).run :=
  .perform op until' fun _ => .done _

theorem delayed_inTransaction (limit : Duration) (until' : Instant) (sql : String) :
    Delayed p.HasLimit k (p.inTransaction limit until' sql).run
      (p.inTransaction limit (until' + k) sql).run := by
  unfold inTransaction
  refine (p.delayed_perform k limit (some until') (.execute sql)).attempt_bind fun x => ?_
  dsimp only
  split
  · exact .done _
  · refine (p.delayed_consult k .after _).attempt_bind fun text => ?_
    cases QueryResult.ofText text with
    | ok r => exact .done _
    | error why => exact .done _

theorem delayed_close (limit : Duration) (d : Except Fault QueryResult) :
    Delayed p.HasLimit k (p.close limit d).run (p.close limit d).run := by
  cases d with
  | error why => exact .perform .rollback none fun r => .done _
  | ok r => exact (p.delayed_perform k limit none .commit).attempt_bind fun _ => .done _

/-- What is done at an instant some span from now, is done later by as much. -/
theorem delayed_deadline {α : Type} {span : Duration} (hs : p.HasLimit span)
    {f f' : Instant → Attempt α} (h : ∀ t, Delayed p.HasLimit k (f t).run (f' (t + k)).run) :
    Delayed p.HasLimit k (deadline span >>= f).run (deadline span >>= f').run :=
  .deadline false hs h

theorem delayed_transact (sql : String) :
    Delayed p.HasLimit k (p.transact sql).run (p.transact sql).run := by
  unfold transact
  refine p.delayed_deadline k (p.hasLimit_select sql) fun until' => ?_
  refine (p.delayed_perform k _ (some until') _).attempt_bind fun _ => ?_
  refine Delayed.attempt_bind ?_ fun d => p.delayed_close k _ d
  exact (p.delayed_inTransaction k _ until' sql).bind fun d => .done _

theorem delayed_statement (sql : String) :
    Delayed p.HasLimit k (p.statement sql).run (p.statement sql).run := by
  unfold statement
  refine (p.delayed_consult k .before sql).attempt_bind fun text => ?_
  split
  · exact .done _
  · exact p.delayed_transact k text

theorem delayed_catalog (op : Backend.Operation) :
    Delayed p.HasLimit k (p.catalog op).run (p.catalog op).run :=
  p.delayed_deadline k (.inl rfl) fun until' => p.delayed_perform k _ (some until') op

/-- A call that is begun later does the same. -/
theorem delayed_call (call : Tool.Call) :
    Delayed p.HasLimit k (p.call call).work (p.call call).work := by
  cases call with
  | executeSql sql => exact (p.delayed_statement k sql).bind fun _ => .done _
  | listTables schema => exact (p.delayed_catalog k _).bind fun _ => .done _
  | describeTable table schema => exact (p.delayed_catalog k _).bind fun _ => .done _

end Delay

/-! ## Calls that come together -/

/-- A call starts in a context of its own, which nothing bounds. -/
def launch (b : Backend) (g : Gateway Answer) (call : Tool.Call) : Gateway Answer :=
  (g.addContext .unbounded).start g.contexts.length (p.call call) b

/-- What comes of calls that start one after the other, while time passes. -/
inductive Gathers (b : Backend) : List Tool.Call → Gateway Answer → Prop where
  | nobody : Gathers b [] (.ofPool p.pool)
  | start {calls : List Tool.Call} {g : Gateway Answer} (call : Tool.Call)
    (h : Gathers b calls g) : Gathers b (calls ++ [call]) (p.launch b g call)
  | pass {calls : List Tool.Call} {g : Gateway Answer} (millis : Nat) (h : Gathers b calls g) :
    Gathers b calls (g.pass millis)

/-- The only call that there is comes to its end with an answer. -/
def AnswersAlone (b : Backend) (call : Tool.Call) (a : Answer) : Prop :=
  ∃ t, (p.launch b (.ofPool p.pool) call).finish.stage? 0 = some (.ended t (some a))

variable {p} {b : Backend} {n : Nat}

theorem Gathers.apart (hpool : Admission.Pool.ofCapacity n = .ok p.pool) {calls : List Tool.Call}
    {g : Gateway Answer} (h : p.Gathers b calls g) :
    g.Apart (some g.now) ∧ g.calls = calls.map (fun call => (p.call call, b)) ∧
      g.pool.capacity = n := by
  induction h with
  | nobody =>
      exact ⟨.ofPool (Admission.Pool.valid_of_ofCapacity hpool)
        (Admission.Pool.line_of_ofCapacity hpool) _, rfl,
        Admission.Pool.capacity_of_ofCapacity hpool⟩
  | start call h ih =>
      obtain ⟨happart, hcalls, hcapacity⟩ := ih
      obtain ⟨happart', hcalls', hcapacity'⟩ := happart.start (p.call call) b
      refine ⟨happart', hcalls'.trans ?_, hcapacity'.trans hcapacity⟩
      rw [hcalls, List.map_append, List.map_singleton]
  | pass millis h ih =>
      obtain ⟨happart, hcalls, hcapacity⟩ := ih
      obtain ⟨happart', hcalls', hcapacity'⟩ := happart.pass millis
      exact ⟨happart', hcalls'.trans hcalls, hcapacity'.trans hcapacity⟩

/-- A call that answers alone answers the same from whatever instant on it has its slot, or it breaks
off there. -/
theorem AnswersAlone.run (hpool : Admission.Pool.ofCapacity n = .ok p.pool) {call : Tool.Call}
    {a : Answer} (h : p.AnswersAlone b call a) (start : Instant) :
    ∃ entries t v, Work.run .unbounded b none (p.call call).work start = (entries, .ended t v) ∧
      (v = some a ∨ v = none ∧ ∃ span, p.HasLimit span ∧ Clock.after? t span = none) := by
  obtain ⟨t₀, ht₀⟩ := h
  obtain ⟨happart, hcalls, -⟩ := Gathers.apart hpool (.start call (.nobody (b := b)))
  obtain ⟨⟨-, htasks, -⟩, hsame⟩ := happart.advance (Clock.isWithin_none _)
  obtain ⟨task, htask, hstage⟩ := Option.map_eq_some_iff.1 ht₀
  have hrun : ∃ s entries, Work.run .unbounded b none (p.call call).work s =
      (entries, .ended t₀ (some a)) := by
    have happ := htasks task (List.mem_of_getElem? htask)
    unfold Task.Apart at happ
    rw [hstage] at happ
    have hcall : (task.call, task.backend) = (p.call call, b) := by
      have hmem : (task.call, task.backend) ∈ [(p.call call, b)] := by
        have hall := hsame.calls.trans hcalls
        rw [List.nil_append, List.map_singleton] at hall
        rw [← hall]
        exact List.mem_map_of_mem (List.mem_of_getElem? htask)
      exact List.mem_singleton.1 hmem
    obtain ⟨hc, hb⟩ := Prod.mk.inj hcall
    obtain ⟨s, entries, hsolo⟩ := happ
    refine ⟨s, entries, ?_⟩
    rw [← hc, ← hb]
    exact hsolo
  obtain ⟨s, entries, hs⟩ := hrun
  -- From the beginning of the clock the call answers the same.
  have hzero : ∃ entries t, Work.run .unbounded b none (p.call call).work 0 =
      (entries, .ended t (some a)) := by
    have hfollows := (p.delayed_call s call).run .unbounded b 0
    rw [Context.delay_unbounded, Nat.zero_add, hs] at hfollows
    generalize hr : Work.run .unbounded b none (p.call call).work 0 = r at hfollows
    generalize hr' : (entries, Progress.ended t₀ (some a)) = r' at hfollows
    cases hfollows with
    | ended seen seen' t v =>
        cases hr'
        exact ⟨seen, t, rfl⟩
    | waiting seen seen' q q' => cases hr'
    | brokeOff _ h =>
        obtain ⟨more, t, span, rfl, -, -⟩ := h
        cases hr'
  obtain ⟨seen, t, hzero⟩ := hzero
  have hfollows := (p.delayed_call start call).run .unbounded b 0
  rw [Context.delay_unbounded, Nat.zero_add, hzero] at hfollows
  generalize hr : Work.run .unbounded b none (p.call call).work start = r at hfollows ⊢
  cases hfollows with
  | ended _ seen' => exact ⟨seen', _, _, rfl, .inl rfl⟩
  | brokeOff _ h =>
      obtain ⟨more, t, span, rfl, hs, ht⟩ := h
      exact ⟨more, t, none, rfl, .inr ⟨rfl, span, hs, ht⟩⟩

/-- Calls that answer alone answer the same together, or break off. -/
theorem Gathers.finish (hpool : Admission.Pool.ofCapacity n = .ok p.pool)
    {calls : List Tool.Call} {g : Gateway Answer} (hg : p.Gathers b calls g)
    (halone : ∀ call ∈ calls, ∃ a, p.AnswersAlone b call a) :
    g.finish.available = n ∧ ∀ i call a, calls[i]? = some call → p.AnswersAlone b call a →
      ∃ t v, g.finish.stage? i = some (.ended t v) ∧
        (v = some a ∨ v = none ∧ ∃ span, p.HasLimit span ∧ Clock.after? t span = none) := by
  obtain ⟨happart, hcalls, hcapacity⟩ := hg.apart hpool
  have hpos : 0 < g.pool.capacity := by
    rw [hcapacity]
    exact (Admission.Pool.ofCapacity_eq_ok_iff.1 hpool).1
  have hends : ∀ x ∈ g.calls, ∀ s q, (Work.run .unbounded x.2 none x.1.work s).2 ≠ .waiting q := by
    intro x hx s q
    rw [hcalls] at hx
    obtain ⟨call, hcall, rfl⟩ := List.mem_map.1 hx
    obtain ⟨a, ha⟩ := halone call hcall
    obtain ⟨entries, t, v, hrun, -⟩ := ha.run hpool s
    rw [hrun]
    exact nofun
  obtain ⟨havailable, hstages⟩ := happart.finish hpos hends
  refine ⟨havailable.trans hcapacity, fun i call a hi ha => ?_⟩
  have hcall : g.calls[i]? = some (p.call call, b) := by
    rw [hcalls, List.getElem?_map, hi]
    rfl
  obtain ⟨start, entries, e, v, hrun, hstage⟩ := hstages i _ _ hcall
  obtain ⟨entries', t, v', hrun', hv⟩ := ha.run hpool start
  rw [hrun] at hrun'
  cases hrun'
  exact ⟨e, v, hstage, hv⟩

end Pipeline

end SqlGate
