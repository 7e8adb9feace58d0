import SqlGate.Proofs.Json.Doubles
import SqlGate.Proofs.Pipeline.Bound
import SqlGate.Proofs.Pipeline.Mediation
import SqlGate.Proofs.QueryResult.Rereading
import SqlGate.Proofs.Work.Run

/-!
# Guardrails that only look

Guardrails after a statement get its result in its written form, and what the call goes on with is
read from that form again, even if none of them has changed it. So guardrails that accept and change
nothing are not noticed if the result is read back as it was written, which is a matter of its cells
(`QueryResult.Faithful`): documents that nest too deep are not read back, and neither are some
doubles.
-/

namespace SqlGate

open Json

/-! ## Executions -/

/-- An execution as a database can give it: its documents are proper, and its counts fit 64 bits. -/
structure Backend.Execution.Valid (x : Backend.Execution) : Prop where
  proper : ∀ row ∈ x.rows, ∀ value ∈ row, ∀ v ∈ value.documents, Proper v
  affected : x.rowsAffected < 18446744073709551616
  counted : x.rows.length < 18446744073709551616

namespace QueryResult

variable {x : Backend.Execution}

theorem proper_ofExecution (h : x.Valid) : ∀ row ∈ (ofExecution x).rows, Proper (.obj row) := by
  intro row hrow
  obtain ⟨values, hvalues, rfl⟩ := List.mem_map.1 hrow
  exact proper_rowOf x.columns (h.proper values hvalues)

theorem rowsAffected_ofExecution_lt (h : x.Valid) :
    (ofExecution x).rowsAffected < 18446744073709551616 := by
  have hcount : (x.rows.map (rowOf x.columns)).length < 18446744073709551616 := by
    rw [List.length_map]
    exact h.counted
  exact Nat.max_lt.2 ⟨h.affected, hcount⟩

/-- A result is read back if it is faithful, and only then. -/
theorem ofText_ofExecution_iff (h : x.Valid) :
    ofText (ofExecution x).text = .ok (ofExecution x) ↔ (ofExecution x).Faithful :=
  ofText_text_eq_ok_iff (proper_ofExecution h) (rowsAffected_ofExecution_lt h)

end QueryResult

/-! ## Guardrails that let a text pass -/

namespace Guardrail

/-- Every guardrail of a list whose pattern matches a text accepts it in its time, and puts no other
text in its place. -/
inductive Passes (c : Context) (phase : Phase) (text : String) :
    List Entry → Instant → Instant → Prop where
  | done (t : Instant) : Passes c phase text [] t t
  | skipped {e : Entry} {es : List Entry} {t t' : Instant} (hm : e.pattern.isMatch text = false)
    (rest : Passes c phase text es t t') : Passes c phase text (e :: es) t t'
  | accepted {e : Entry} {es : List Entry} {t t₁ t' limit : Instant} {r : Response}
    (hm : e.pattern.isMatch text = true) (hl : Clock.after? t e.timeout = some limit)
    (hd : Decides (c.within (some limit)) e.guardrail text t (.ok r) t₁) (ha : r.accept = true)
    (hr : r.replacement phase = none) (rest : Passes c phase text es t₁ t') :
    Passes c phase text (e :: es) t t'

/-- Such guardrails leave the text they were shown. -/
theorem Passes.course {c : Context} {phase : Phase} {text : String} {es : List Entry}
    {t t' : Instant} (h : Passes c phase text es t t') :
    ∃ seen, Course c phase es text t seen (some (.ok text)) t' := by
  induction h with
  | done t => exact ⟨[], .done text t⟩
  | skipped hm rest ih =>
      obtain ⟨seen, hseen⟩ := ih
      exact ⟨seen, .skipped hm hseen⟩
  | @accepted e es t t₁ t' limit r hm hl hd ha hr rest ih =>
      obtain ⟨seen, hseen⟩ := ih
      have hrest : Course c phase es ((r.replacement phase).getD text) t₁ seen (some (.ok text)) t' :=
        by rw [hr]; exact hseen
      exact ⟨_, .accepted hm hl hd ha hrest⟩

end Guardrail

/-! ## Calls -/

namespace Pipeline

variable {p : Pipeline} {c : Context} {b : Backend}

/-- The same pipeline without guardrails after a statement. -/
def unwatched (p : Pipeline) : Pipeline :=
  { p with guardrails := { p.guardrails with after := [] } }

/-- What a call that executes a statement answers, if it does. -/
def answer? (p : Pipeline) (c : Context) (b : Backend) (sql : String) (start : Instant) :
    Option Answer :=
  (Work.run c b none (p.execute sql).work start).2.value?

theorem answer?_eq (p : Pipeline) (c : Context) (b : Backend) (sql : String) (start : Instant) :
    p.answer? c b sql start =
      (Work.run c b none (p.statement sql).run start).2.value?.map fun d => .result (p.conclude d) :=
  Work.value?_map _ _ start

/-- The database gives an execution for the statement of a call, at an instant. -/
inductive Yields (p : Pipeline) (c : Context) (b : Backend) (sql : String) (start : Instant)
    (x : Backend.Execution) (t₂ : Instant) : Prop where
  | intro {text : String} {t t₁ until' : Instant}
    {opened : Reply (Backend.Operation.begin (p.options text)).Answer}
    {reply : Reply (Backend.Operation.execute text).Answer}
    (hc : p.Cleared c sql start text t until')
    (hb : Returned (c.within (some until')) b (.begin (p.options text)) t opened t₁)
    (ho : ofReply (p.timeouts.select text) opened = .ok ())
    (hx : Returned (c.within (some until')) b (.execute text) t₁ reply t₂)
    (hr : ofReply (p.timeouts.select text) reply = .ok x)

/-- The guardrails after a statement let the result of an execution pass, and what comes of the
commit does not depend on the time that they take. -/
def Accepted (p : Pipeline) (c : Context) (b : Backend) (x : Backend.Execution) (t : Instant) :
    Prop :=
  ∃ t', Guardrail.Passes c .after (QueryResult.ofExecution x).text p.guardrails.after t t' ∧
    Work.reply? c b .commit t' = Work.reply? c b .commit t

theorem value?_close_ok (span : Duration) (r : QueryResult) (t : Instant) :
    (Work.run c b none (p.close span (.ok r)).run t).2.value? =
      (Work.reply? c b .commit t).map fun reply => (ofReply span reply).map fun _ =>
        { r with rows := p.sanitizer.rows r.rows }.cap p.maxResultBytes := by
  rw [← Work.value?_perform]
  refine congrArg (fun next => (Work.run c b none (.perform .commit none next) t).2.value?)
    (funext fun reply => ?_)
  change (Work.done (ofReply span reply)).bind _ = _
  cases ofReply span reply <;> rfl

theorem value?_close_error (span : Duration) (why : Fault) (t : Instant) :
    (Work.run c b none (p.close span (.error why)).run t).2.value? =
      (Work.reply? c b .rollback t).map fun _ => .error why :=
  Work.value?_perform fun _ => (.error why : Except Fault QueryResult)

theorem run_inTransaction_plain {span : Duration} {until' t t₁ : Instant} {sql : String}
    {reply : Reply (Backend.Operation.execute sql).Answer} {x : Backend.Execution}
    (hs : (c.within (some until')).status t = none)
    (hx : Returned (c.within (some until')) b (.execute sql) t reply t₁)
    (hr : ofReply span reply = .ok x) (hnone : p.guardrails.after = []) :
    Work.run c b none (p.inTransaction span until' sql).run t =
      ([⟨t, .asked (.execute sql)⟩], .ended t₁ (some (.ok (.ofExecution x)))) := by
  have hrun := run_perform_live span hs hx
  rw [hr] at hrun
  unfold inTransaction
  rw [Work.run_attempt_bind_ok _ hrun, hnone]
  rfl

theorem run_inTransaction_passed {span : Duration} {until' t t₁ t₂ : Instant} {sql : String}
    {reply : Reply (Backend.Operation.execute sql).Answer} {x : Backend.Execution}
    (hs : (c.within (some until')).status t = none)
    (hx : Returned (c.within (some until')) b (.execute sql) t reply t₁)
    (hr : ofReply span reply = .ok x) (hsome : p.guardrails.after ≠ [])
    (hpasses : Guardrail.Passes c .after (QueryResult.ofExecution x).text p.guardrails.after t₁ t₂) :
    ∃ entries, Work.run c b none (p.inTransaction span until' sql).run t =
      (entries, .ended t₂ (some
        ((QueryResult.ofText (QueryResult.ofExecution x).text).mapError .unreadableResult))) := by
  have hrun := run_perform_live span hs hx
  rw [hr] at hrun
  obtain ⟨seen, hcourse⟩ := hpasses.course
  obtain ⟨seen', v, t', hcourse', hconsult⟩ :=
    run_consult p c b .after (QueryResult.ofExecution x).text t₁
  obtain ⟨rfl, rfl, rfl⟩ := hcourse.unique hcourse'
  unfold inTransaction
  rw [Work.run_attempt_bind_ok _ hrun, if_neg (by simpa using hsome),
    Work.run_attempt_bind_ok _ hconsult]
  cases QueryResult.ofText (QueryResult.ofExecution x).text with
  | error why => exact ⟨_, rfl⟩
  | ok r => exact ⟨_, rfl⟩

/-- Inside a transaction, a result that is accepted and read back is what it would be without
guardrails. -/
theorem run_inTransaction_accepted {span : Duration} {until' t t₁ : Instant} {sql : String}
    {reply : Reply (Backend.Operation.execute sql).Answer} {x : Backend.Execution}
    (hs : (c.within (some until')).status t = none)
    (hx : Returned (c.within (some until')) b (.execute sql) t reply t₁)
    (hr : ofReply span reply = .ok x) (ha : p.Accepted c b x t₁)
    (hread : QueryResult.ofText (QueryResult.ofExecution x).text = .ok (.ofExecution x)) :
    ∃ entries t', Work.run c b none (p.inTransaction span until' sql).run t =
      (entries, .ended t' (some (.ok (.ofExecution x)))) ∧
      Work.reply? c b .commit t' = Work.reply? c b .commit t₁ := by
  obtain ⟨t', hpasses, hcommit⟩ := ha
  by_cases hnone : p.guardrails.after = []
  · exact ⟨_, t₁, run_inTransaction_plain hs hx hr hnone, rfl⟩
  · obtain ⟨entries, hrun⟩ := run_inTransaction_passed hs hx hr hnone hpasses
    rw [hread] at hrun
    exact ⟨entries, t', hrun, hcommit⟩

/-- The end of a transaction whose statement failed does not depend on guardrails. -/
theorem run_inTransaction_failed {span : Duration} {until' t t₁ : Instant} {sql : String}
    {reply : Reply (Backend.Operation.execute sql).Answer} {why : Fault}
    (hs : (c.within (some until')).status t = none)
    (hx : Returned (c.within (some until')) b (.execute sql) t reply t₁)
    (hr : ofReply span reply = .error why) :
    Work.run c b none (p.inTransaction span until' sql).run t =
      ([⟨t, .asked (.execute sql)⟩], .ended t₁ (some (.error why))) := by
  have hrun := run_perform_live span hs hx
  rw [hr] at hrun
  exact Work.run_attempt_bind_error _ hrun

/-- What was asked of the database and succeeded was asked in a live context, and was done there. -/
theorem returned_of_run {span : Duration} {until' t t' : Instant} {op : Backend.Operation}
    {entries : List Work.Entry} {a : op.Answer}
    (h : Work.run c b none (perform span (some until') op).run t =
      (entries, .ended t' (some (.ok a)))) :
    (c.within (some until')).status t = none ∧
      ∃ reply, Returned (c.within (some until')) b op t reply t' ∧ ofReply span reply = .ok a := by
  cases hs : (c.within (some until')).status t with
  | some e =>
      have hover : Work.run c b none (perform span (some until') op).run t = _ :=
        Work.run_perform_over c b none _ hs
      obtain ⟨why, hwhy⟩ := ofReply_late (α := op.Answer) span e
      rw [h, hwhy] at hover
      cases hover
  | none =>
      obtain ⟨reply, t₁, hr⟩ := exists_returned b op t (c.endsAt_within_isSome until')
      rw [run_perform_live span hs hr] at h
      obtain ⟨rfl, ho⟩ : t₁ = t' ∧ ofReply span reply = .ok a := by
        injection h with _ h
        injection h with ht h
        exact ⟨ht, Option.some.inj h⟩
      exact ⟨rfl, reply, hr, ho⟩

theorem after?_of_run {span : Duration} {until' t t' : Instant} {entries : List Work.Entry}
    (h : Work.run c b none (deadline span).run t = (entries, .ended t' (some (.ok until')))) :
    Clock.after? t span = some until' ∧ t = t' := by
  cases hl : Clock.after? t span with
  | none =>
      have hrun : Work.run c b none (deadline span).run t = _ :=
        Work.run_deadline_none c b none false _ hl
      rw [h] at hrun
      cases hrun
  | some limit =>
      have hrun : Work.run c b none (deadline span).run t = ([], .ended t (some (.ok limit))) :=
        Work.run_deadline_some c b none false _ hl
      rw [h] at hrun
      cases hrun
      exact ⟨rfl, rfl⟩

theorem course_of_run {phase : Guardrail.Phase} {text text' : String} {t t' : Instant}
    {entries : List Work.Entry} (h : Work.run c b none (p.consult phase text).run t =
      (entries, .ended t' (some (.ok text')))) :
    ∃ seen, Guardrail.Course c phase (p.guardrails.entries phase) text t seen (some (.ok text'))
      t' := by
  obtain ⟨seen, v, t₁, hg, hrun⟩ := run_consult p c b phase text t
  rw [h] at hrun
  match v with
  | none => cases hrun
  | some (.error why) => cases hrun
  | some (.ok text₁) =>
      cases hrun
      exact ⟨seen, hg⟩

/-! ## The whole call -/

/-- The call has nothing to notice of the guardrails after its statement: any execution that it is
given is faithful, and accepted. -/
def Unnoticed (p : Pipeline) (c : Context) (b : Backend) (sql : String) (start : Instant) : Prop :=
  ∀ x t, p.Yields c b sql start x t → x.Valid ∧ (QueryResult.ofExecution x).Faithful ∧
    p.Accepted c b x t

theorem alike_delivered {sql text : String} {start t t₁ until' : Instant}
    {opened : Reply (Backend.Operation.begin (p.options text)).Answer}
    (hc : p.Cleared c sql start text t until')
    (hb : Returned (c.within (some until')) b (.begin (p.options text)) t opened t₁)
    (ho : ofReply (p.timeouts.select text) opened = .ok ()) (hu : p.Unnoticed c b sql start) :
    Work.Alike c b
      (ExceptT.lift (p.inTransaction (p.timeouts.select text) until' text).run >>=
        p.close (p.timeouts.select text)).run
      (ExceptT.lift (p.unwatched.inTransaction (p.timeouts.select text) until' text).run >>=
        p.unwatched.close (p.timeouts.select text)).run t₁ := by
  have hs : (c.within (some until')).status t₁ = none := hb.status ho
  obtain ⟨reply, t₂, hx⟩ :=
    exists_returned b (.execute text) t₁ (c.endsAt_within_isSome until')
  unfold Work.Alike
  rw [run_lift_bind, run_lift_bind]
  cases hr : ofReply (p.timeouts.select text) reply with
  | error why =>
      rw [run_inTransaction_failed hs hx hr, run_inTransaction_failed hs hx hr]
      rfl
  | ok x =>
      obtain ⟨hvalid, hfaithful, haccepted⟩ := hu x t₂ (.intro hc hb ho hx hr)
      have hread := (QueryResult.ofText_ofExecution_iff hvalid).2 hfaithful
      have hplain : p.unwatched.Accepted c b x t₂ := ⟨t₂, .done t₂, rfl⟩
      obtain ⟨entries, t₃, hrun, hcommit⟩ := run_inTransaction_accepted hs hx hr haccepted hread
      obtain ⟨entries', t₃', hrun', hcommit'⟩ := run_inTransaction_accepted hs hx hr hplain hread
      rw [hrun, hrun']
      change (Work.run c b none _ t₃).2.value? = (Work.run c b none _ t₃').2.value?
      rw [value?_close_ok, value?_close_ok, hcommit, hcommit']
      rfl

theorem alike_transact {sql text : String} {start t : Instant} {seen : List Work.Entry}
    (hg : Guardrail.Course c .before p.guardrails.before sql start seen (some (.ok text)) t)
    (ha : p.policy.check text = .ok ()) (hu : p.Unnoticed c b sql start) :
    Work.Alike c b (p.transact text).run (p.unwatched.transact text).run t := by
  unfold transact
  refine Work.alike_attempt_bind fun _ until' t' hd => ?_
  obtain ⟨hl, rfl⟩ := after?_of_run hd
  refine Work.alike_attempt_bind fun _ _ t₁ he => ?_
  obtain ⟨hs, opened, hb, ho⟩ := returned_of_run he
  exact alike_delivered ⟨⟨seen, hg⟩, ha, hl, hs⟩ hb ho hu

theorem alike_statement {sql : String} {start : Instant} (hu : p.Unnoticed c b sql start) :
    Work.Alike c b (p.statement sql).run (p.unwatched.statement sql).run start := by
  unfold statement
  refine Work.alike_attempt_bind fun _ text t hconsult => ?_
  obtain ⟨seen, hg⟩ := course_of_run hconsult
  have hpolicy : p.unwatched.policy = p.policy := rfl
  rw [hpolicy]
  cases hp : p.policy.check text with
  | error why => rfl
  | ok u => exact alike_transact hg hp hu

/-! ## One guardrail that accepts everything -/

theorem Returned.unique {op : Backend.Operation} {t t₁ t₂ : Instant} {reply reply' : Reply op.Answer}
    (h : Returned c b op t reply t₁) (h' : Returned c b op t reply' t₂) :
    reply = reply' ∧ t₁ = t₂ := by
  cases h with
  | answered hw =>
      cases h' with
      | answered hw' =>
          cases hw.symm.trans hw'
          exact ⟨rfl, rfl⟩
      | late hw' => cases hw.symm.trans hw'
  | late hw =>
      cases h' with
      | answered hw' => cases hw.symm.trans hw'
      | late hw' =>
          cases hw.symm.trans hw'
          exact ⟨rfl, rfl⟩

/-- A call is given one execution at most. -/
theorem Yields.unique {sql : String} {start t t' : Instant} {x x' : Backend.Execution}
    (h : p.Yields c b sql start x t) (h' : p.Yields c b sql start x' t') : x = x' ∧ t = t' := by
  obtain ⟨hc, hb, -, hx, hr⟩ := h
  obtain ⟨hc', hb', -, hx', hr'⟩ := h'
  obtain ⟨seen, hg⟩ := hc.approved
  obtain ⟨rfl, rfl⟩ := hc'.unique rfl hg
  obtain rfl := Option.some.inj (hc.timed.symm.trans hc'.timed)
  obtain ⟨-, rfl⟩ := hb.unique hb'
  obtain ⟨rfl, rfl⟩ := hx.unique hx'
  exact ⟨Except.ok.inj (hr.symm.trans hr'), rfl⟩

theorem Cleared.unwatched {sql text : String} {start t until' : Instant}
    (h : p.Cleared c sql start text t until') : p.unwatched.Cleared c sql start text t until' :=
  ⟨h.approved, h.allowed, h.timed, h.live⟩

/-- The pattern that matches every text. -/
def everywhere : Pattern := ⟨⟨#[.accept], 0, 2, 6⟩, []⟩

example : Pattern.ofString? "" = some everywhere := rfl

theorem isMatch_everywhere (s : String) : everywhere.isMatch s = true := by
  unfold Pattern.isMatch Pattern.Machine.find?
  generalize s.toList = cs
  cases cs with
  | nil => rfl
  | cons c cs => cases cs <;> rfl

/-- The decision that accepts and changes nothing. -/
def consent : Guardrail.Response := ⟨true, none, none, none⟩

/-- A guardrail that accepts everything at once. -/
def lenient : Guardrail := ⟨"lenient", fun _ => .decides (some 0) (.ok consent)⟩

/-- One call at a time, and a guardrail that accepts every result. -/
def watched : Pipeline := { alone with guardrails := ⟨[], [⟨everywhere, lenient, .ofSecs 1⟩]⟩ }

/-- A database that gives one execution for every statement, and at once. -/
def answering (x : Backend.Execution) : Backend where
  behaviour
    | .begin _ => ⟨some 0, .ok ()⟩
    | .execute _ => ⟨some 0, .ok x⟩
    | .commit => ⟨some 0, .ok ()⟩
    | .rollback => ⟨some 0, .ok ()⟩
    | .listTables _ => ⟨some 0, .ok []⟩
    | .describeTable _ _ => ⟨some 0, .error ⟨[]⟩⟩

section Watched

variable (x : Backend.Execution)

theorem cleared_watched : watched.Cleared .unbounded "SELECT 1" 0 "SELECT 1" 0 1000 where
  approved := ⟨[], .done _ _⟩
  allowed := by
    change Policy.Rules.strict.check "SELECT 1" = .ok ()
    decide +kernel
  timed := rfl
  live := rfl

theorem returned_begin : Returned (Context.unbounded.within (some 1000)) (answering x)
    (.begin (watched.options "SELECT 1")) 0 (.answered (.ok ())) 0 := .answered rfl

theorem returned_execute : Returned (Context.unbounded.within (some 1000)) (answering x)
    (.execute "SELECT 1") 0 (.answered (.ok x)) 0 := .answered rfl

theorem ofReply_answered : ofReply (.ofSecs 1) (.answered (.ok x)) = .ok x := rfl

theorem yields_answering : watched.Yields .unbounded (answering x) "SELECT 1" 0 x 0 :=
  .intro cleared_watched (returned_begin x) rfl (returned_execute x) rfl

theorem passes_watched (text : String) :
    Guardrail.Passes .unbounded .after text watched.guardrails.after 0 0 := by
  have hfate : lenient.fate text = .decides (some 0) (.ok consent) := rfl
  have hawait : (Context.unbounded.within (some 1000)).await none 0 (some 0) = some (0, none) := rfl
  have hdecides := Guardrail.Decides.inTime hfate hawait
  exact .accepted (isMatch_everywhere text) rfl hdecides rfl rfl (.done 0)

theorem accepted_answering : watched.Accepted .unbounded (answering x) x 0 :=
  ⟨0, passes_watched _, rfl⟩

end Watched

/-! ## Transparency -/

/-- Guardrails that accept a result and change nothing of it are not noticed if the result is
faithful, which is just what it takes to be read back; and it is faithful if its cells nest less than
125 deep and hold no doubles but short ones. -/
theorem execute_transparent (p : Pipeline) (c : Context) (b : Backend) (sql : String)
    (start : Instant) :
    (∀ x : Backend.Execution, x.Valid →
      (QueryResult.ofText (QueryResult.ofExecution x).text = .ok (.ofExecution x) ↔
        (QueryResult.ofExecution x).Faithful)) ∧
    (∀ r : QueryResult, (∀ row ∈ r.rows, ∀ cell ∈ row, nesting cell.2 < 125 ∧
      ∀ d ∈ doubles cell.2, Short d) → r.Faithful) ∧
    (p.Unnoticed c b sql start →
      p.answer? c b sql start = p.unwatched.answer? c b sql start) := by
  refine ⟨fun x hx => QueryResult.ofText_ofExecution_iff hx, fun r h row hrow cell hcell => ?_,
    fun hu => ?_⟩
  · obtain ⟨hnesting, hshort⟩ := h row hrow cell hcell
    exact ⟨hnesting, fun d hd => kept_of_short (hshort d hd)⟩
  · rw [answer?_eq, answer?_eq]
    exact congrArg (Option.map fun d => Answer.result (p.conclude d)) (alike_statement hu)

/-- An integer comes through unnoticed. -/
theorem execute_transparent_integer :
    watched.Yields .unbounded (answering ⟨["a"], [[.int 1]], 0⟩) "SELECT 1" 0
      ⟨["a"], [[.int 1]], 0⟩ 0 ∧
    watched.answer? .unbounded (answering ⟨["a"], [[.int 1]], 0⟩) "SELECT 1" 0 =
      watched.unwatched.answer? .unbounded (answering ⟨["a"], [[.int 1]], 0⟩) "SELECT 1" 0 := by
  have hvalid : Backend.Execution.Valid ⟨["a"], [[.int 1]], 0⟩ :=
    ⟨by simp [Native.documents], by decide, by decide⟩
  have hfaithful : (QueryResult.ofExecution ⟨["a"], [[.int 1]], 0⟩).Faithful := by
    change QueryResult.Faithful ⟨["a"], [[("a", .int 1)]], 1, none⟩
    simp [QueryResult.Faithful, Json.int, nesting, doubles, QueryResult.cellDepth, maxDepth]
  refine ⟨yields_answering _, (execute_transparent watched _ _ _ _).2.2 fun x t h => ?_⟩
  obtain ⟨rfl, rfl⟩ := (yields_answering _).unique h
  exact ⟨hvalid, hfaithful, accepted_answering _⟩

/-! ## A document that is not read back -/

/-- Once its transaction was opened, a statement ends as what is done in the transaction and at the
end of it. -/
theorem value?_statement {sql text : String} {start t t₁ until' : Instant}
    {opened : Reply (Backend.Operation.begin (p.options text)).Answer}
    (hc : p.Cleared c sql start text t until')
    (hb : Returned (c.within (some until')) b (.begin (p.options text)) t opened t₁)
    (ho : ofReply (p.timeouts.select text) opened = .ok ()) :
    (Work.run c b none (p.statement sql).run start).2.value? =
      (Work.andThen c b none (fun v => (p.close (p.timeouts.select text) v).run)
        (Work.run c b none
          (p.inTransaction (p.timeouts.select text) until' text).run t₁)).2.value? := by
  obtain ⟨⟨seen, hg⟩, hp, hl, hs⟩ := hc
  obtain ⟨seen', v, t', hg', hconsult⟩ := run_consult p c b .before sql start
  obtain ⟨rfl, rfl, rfl⟩ := hg.unique hg'
  have hopen : Work.run c b none (p.enter until' text).run t =
      ([⟨t, .asked (.begin (p.options text))⟩], .ended t₁ (some (.ok ()))) := by
    have hrun := run_perform_live (p.timeouts.select text) hs hb
    rw [ho] at hrun
    exact hrun
  have hdeadline : Work.run c b none (deadline (p.timeouts.select text)).run t =
      ([], .ended t (some (.ok until'))) := Work.run_deadline_some c b none false _ hl
  unfold statement
  rw [Work.run_attempt_bind_ok _ hconsult, hp]
  change (Work.run c b none (p.transact text).run t).2.value? = _
  unfold transact
  rw [Work.run_attempt_bind_ok _ hdeadline, Work.preceded, Work.run_attempt_bind_ok _ hopen]
  exact congrArg (Work.Progress.value? ·.2) (run_lift_bind c b _ _ t₁)

/-- Arrays inside each other. -/
def stacked : Nat → Json
  | 0 => .arr []
  | n + 1 => .arr [stacked n]

theorem proper_stacked (n : Nat) : Proper (stacked n) := by
  induction n with
  | zero => exact .arr fun x hx => absurd hx List.not_mem_nil
  | succ n ih => exact .arr (List.forall_mem_singleton.2 ih)

theorem reread_stacked (n : Nat) : reread (n + 1) (stacked n) = none := by
  induction n with
  | zero => rfl
  | succ n ih =>
      rw [stacked, reread, if_neg (by omega), Nat.add_sub_cancel, rereadAll, ih]
      rfl

/-- The execution with a document of 125 arrays inside each other as its only cell. -/
def deep : Backend.Execution := ⟨["a"], [[.json (stacked 124)]], 0⟩

theorem valid_deep : deep.Valid where
  proper := by simp [deep, Native.documents, proper_stacked]
  affected := by decide
  counted := by decide

theorem ofText_deep :
    ∃ why, QueryResult.ofText (QueryResult.ofExecution deep).text = .error why := by
  have hrows : QueryResult.rereadRows (QueryResult.ofExecution deep).rows = none := by
    change QueryResult.rereadRows [[("a", stacked 124)]] = none
    rw [QueryResult.rereadRows, List.mapM_cons, rereadMembers]
    change (reread (124 + 1) (stacked 124) >>= _) >>= _ = none
    rw [reread_stacked]
    rfl
  have hread := QueryResult.toOption_ofText (QueryResult.proper_ofExecution valid_deep)
    (QueryResult.rowsAffected_ofExecution_lt valid_deep)
  rw [hrows] at hread
  cases htext : QueryResult.ofText (QueryResult.ofExecution deep).text with
  | error why => exact ⟨why, rfl⟩
  | ok r =>
      rw [htext] at hread
      cases hread

theorem answer?_watched {x : Backend.Execution} {why : Json.Fault}
    (h : QueryResult.ofText (QueryResult.ofExecution x).text = .error why) :
    watched.answer? .unbounded (answering x) "SELECT 1" 0 =
      some (.result (watched.conclude (.error (.unreadableResult why)))) := by
  obtain ⟨entries, hrun⟩ := run_inTransaction_passed cleared_watched.live (returned_execute x)
    (ofReply_answered x) (List.cons_ne_nil _ _) (passes_watched (QueryResult.ofExecution x).text)
  have hstatement := value?_statement cleared_watched (returned_begin x) rfl
  change (Work.run .unbounded (answering x) none (watched.statement "SELECT 1").run 0).2.value? =
    (Work.andThen .unbounded (answering x) none _ (Work.run .unbounded (answering x) none
      (watched.inTransaction (.ofSecs 1) 1000 "SELECT 1").run 0)).2.value? at hstatement
  rw [hrun, h] at hstatement
  rw [answer?_eq, hstatement]
  exact congrArg (Option.map _) (value?_close_error _ _ 0)

theorem answer?_unwatched (x : Backend.Execution) :
    watched.unwatched.answer? .unbounded (answering x) "SELECT 1" 0 =
      some (.result (watched.unwatched.conclude (.ok
        ({ QueryResult.ofExecution x with
          rows := watched.sanitizer.rows (QueryResult.ofExecution x).rows }.cap
            watched.maxResultBytes)))) := by
  have hplain : watched.unwatched.guardrails.after = [] := rfl
  have hrun := run_inTransaction_plain cleared_watched.live (returned_execute x)
    (ofReply_answered x) hplain
  have hstatement := value?_statement cleared_watched.unwatched (returned_begin x) rfl
  change (Work.run .unbounded (answering x) none
      (watched.unwatched.statement "SELECT 1").run 0).2.value? =
    (Work.andThen .unbounded (answering x) none _ (Work.run .unbounded (answering x) none
      (watched.unwatched.inTransaction (.ofSecs 1) 1000 "SELECT 1").run 0)).2.value? at hstatement
  rw [hrun] at hstatement
  rw [answer?_eq, hstatement]
  exact congrArg (Option.map _) (value?_close_ok _ _ 0)

theorem columns_conclude_error (p : Pipeline) (why : Fault) :
    (p.conclude (.error why)).columns = [] := rfl

theorem columns_conclude_ok (p : Pipeline) (r : QueryResult) :
    (p.conclude (.ok r)).columns = r.columns := rfl

theorem columns_cap (r : QueryResult) (maxBytes : Nat) : (r.cap maxBytes).columns = r.columns := by
  unfold QueryResult.cap
  dsimp only
  split <;> rfl

/-- A deep document comes out without guardrails after the statement, and fails the statement if
there is one, though it accepts the result. -/
theorem execute_notices_deep :
    deep.Valid ∧ watched.Yields .unbounded (answering deep) "SELECT 1" 0 deep 0 ∧
    watched.Accepted .unbounded (answering deep) deep 0 ∧
    QueryResult.ofText (QueryResult.ofExecution deep).text ≠ .ok (.ofExecution deep) ∧
    watched.answer? .unbounded (answering deep) "SELECT 1" 0 ≠
      watched.unwatched.answer? .unbounded (answering deep) "SELECT 1" 0 := by
  obtain ⟨why, hwhy⟩ := ofText_deep
  refine ⟨valid_deep, yields_answering deep, accepted_answering deep, by simp [hwhy], fun heq => ?_⟩
  rw [answer?_watched hwhy, answer?_unwatched] at heq
  have hcolumns := congrArg QueryResult.columns (Answer.result.inj (Option.some.inj heq))
  rw [columns_conclude_error, columns_conclude_ok, columns_cap] at hcolumns
  exact absurd hcolumns.symm (List.cons_ne_nil "a" [])

end Pipeline

end SqlGate
