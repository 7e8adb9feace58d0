import SqlGate.Proofs.Pipeline.Transparency

/-!
# What a caller learns of rows

Two pieces of work are twins if they ask for the same things in the same order and go on as twins
whenever they get replies that belong together; what they end with belongs together too. At two
databases whose replies belong together and take the same time, twins cannot be told apart by what
is seen of them or by when they end (`Twin.agrees`).

If no guardrail sees the result of a statement, what is in its rows gets to the caller only after the
replacements: two databases cannot be told apart whose rows are the same by then
(`execute_discloses_sanitized`). Neither can they by the beginning of rows that are too long, which
becomes an error.
-/

/-! ## The same work at two databases -/

namespace SqlGate

namespace Work

variable {α α' β β' ε : Type}

/-- Which replies to the same operation belong together. -/
abbrev Likeness := ∀ op : Backend.Operation, Reply op.Answer → Reply op.Answer → Prop

inductive Twin (q : Likeness) (r : α → α' → Prop) : Work α → Work α' → Prop where
  | done {a : α} {a' : α'} (h : r a a') : Twin q r (.done a) (.done a')
  | deadline {span : Duration} {inside : Bool} {next : Instant → Work α} {next' : Instant → Work α'}
    (h : ∀ t, Twin q r (next t) (next' t)) :
    Twin q r (.deadline span inside next) (.deadline span inside next')
  | perform {op : Backend.Operation} {limit : Option Instant} {next : Reply op.Answer → Work α}
    {next' : Reply op.Answer → Work α'} (h : ∀ x x', q op x x' → Twin q r (next x) (next' x')) :
    Twin q r (.perform op limit next) (.perform op limit next')
  | consult {g : Guardrail} {payload : String} {limit : Instant}
    {next : Except Guardrail.Fault Guardrail.Response → Work α}
    {next' : Except Guardrail.Fault Guardrail.Response → Work α'}
    (h : ∀ d, Twin q r (next d) (next' d)) :
    Twin q r (.consult g payload limit next) (.consult g payload limit next')
  | rest : Twin q r .rest .rest

variable {q : Likeness} {r : α → α' → Prop} {s : β → β' → Prop}

theorem Twin.bind {w : Work α} {w' : Work α'} {f : α → Work β} {f' : α' → Work β'}
    (h : Twin q r w w') (hf : ∀ a a', r a a' → Twin q s (f a) (f' a')) :
    Twin q s (w >>= f) (w' >>= f') := by
  induction h with
  | done h => exact hf _ _ h
  | deadline h ih => exact .deadline ih
  | perform h ih => exact .perform ih
  | consult h ih => exact .consult ih
  | rest => exact .rest

/-- Attempts that both fail for one reason, or come to values that belong together. -/
inductive Both (r : α → α' → Prop) : Except ε α → Except ε α' → Prop where
  | ok {a : α} {a' : α'} (h : r a a') : Both r (.ok a) (.ok a')
  | error (why : ε) : Both r (.error why) (.error why)

theorem Both.of_eq {d d' : Except ε α} (h : d = d') : Both Eq d d' := by
  subst h
  cases d with
  | ok a => exact .ok rfl
  | error why => exact .error why

theorem Twin.attempt_bind {x : ExceptT ε Work α} {x' : ExceptT ε Work α'}
    {f : α → ExceptT ε Work β} {f' : α' → ExceptT ε Work β'} (h : Twin q (Both r) x.run x'.run)
    (hf : ∀ a a', r a a' → Twin q (Both s) (f a).run (f' a').run) :
    Twin q (Both s) (x >>= f).run (x' >>= f').run := by
  rw [ExceptT.run_bind, ExceptT.run_bind]
  refine h.bind fun d d' hd => ?_
  cases hd with
  | ok ha => exact hf _ _ ha
  | error why => exact .done (.error why)

/-! ## Running twins -/

/-- The replies of two databases belong together, and take the same time. -/
structure Likeness.Holds (q : Likeness) (b b' : Backend) : Prop where
  delay : ∀ op, (b.behaviour op).delay = (b'.behaviour op).delay
  answered : ∀ op, q op (.answered (b.behaviour op).result) (.answered (b'.behaviour op).result)
  late : ∀ op e, q op (.late e) (.late e)

/-- Two runs have come equally far: both wait, or both ended at one instant. -/
inductive Progress.Agrees (r : α → α' → Prop) : Progress α → Progress α' → Prop where
  | waiting (p : Pending α) (p' : Pending α') : Agrees r (.waiting p) (.waiting p')
  | brokenOff (t : Instant) : Agrees r (.ended t none) (.ended t none)
  | ended (t : Instant) {a : α} {a' : α'} (h : r a a') :
    Agrees r (.ended t (some a)) (.ended t (some a'))

/-- Two runs of which the same was seen, and which have come equally far. -/
def Agree (r : α → α' → Prop) (x : List Entry × Progress α) (x' : List Entry × Progress α') :
    Prop :=
  x.1 = x'.1 ∧ x.2.Agrees r x'.2

theorem Agree.preceded {x : List Entry × Progress α} {x' : List Entry × Progress α'}
    (h : Agree r x x') (entries : List Entry) : Agree r (preceded entries x) (preceded entries x') :=
  ⟨congrArg (entries ++ ·) h.1, h.2⟩

/-- Twins agree at databases whose replies belong together. -/
theorem Twin.agrees {w : Work α} {w' : Work α'} {b b' : Backend} (h : Twin q r w w')
    (hb : q.Holds b b') (c : Context) (horizon : Option Instant) (now : Instant) :
    Agree r (run c b horizon w now) (run c b' horizon w' now) := by
  induction h generalizing now with
  | done h => exact ⟨rfl, .ended now h⟩
  | rest => exact ⟨rfl, .waiting _ _⟩
  | @deadline span inside next next' h ih =>
      cases hspan : Clock.after? now span with
      | none =>
          rw [run_deadline_none c b horizon _ _ hspan, run_deadline_none c b' horizon _ _ hspan]
          exact ⟨rfl, .brokenOff now⟩
      | some t =>
          rw [run_deadline_some c b horizon _ _ hspan, run_deadline_some c b' horizon _ _ hspan]
          exact ih t now
  | @perform op limit next next' h ih =>
      rw [run_perform_eq, run_perform_eq, ← hb.delay op]
      dsimp only
      split
      · exact (ih _ _ (hb.late op _) now).preceded _
      · refine Agree.preceded ?_ _
        split
        · exact ih _ _ (hb.answered op) _
        · exact ih _ _ (hb.late op _) _
        · exact ⟨rfl, .waiting _ _⟩
  | @consult g payload limit next next' h ih =>
      rw [run_consult_eq, run_consult_eq]
      refine Agree.preceded ?_ _
      split
      · exact ih _ now
      · dsimp only
        split
        · exact ih _ _
        · exact ih _ _
        · exact ⟨rfl, .waiting _ _⟩

/-- When work ended and with what value, if it ended. -/
def Progress.outcome? : Progress α → Option (Instant × Option α)
  | .ended t value => some (t, value)
  | .waiting _ => none

theorem Progress.Agrees.outcome?_eq {p p' : Progress α} (h : p.Agrees Eq p') :
    p.outcome? = p'.outcome? := by
  cases h with
  | waiting p p' => rfl
  | brokenOff t => rfl
  | ended t h => rw [h]

end Work

end SqlGate

/-! ## Rows that differ -/

namespace SqlGate

open Work

/-- Executions that differ only in the values in their rows, and not even there once the replacements
are made. -/
structure Backend.Execution.Indistinct (s : Sanitizer) (x x' : Backend.Execution) : Prop where
  columns : x.columns = x'.columns
  count : x.rows.length = x'.rows.length
  affected : x.rowsAffected = x'.rowsAffected
  hidden : s.rows (QueryResult.ofExecution x).rows = s.rows (QueryResult.ofExecution x').rows

/-- Databases that do the same in the same time, but for the values in the rows that statements
give. -/
structure Backend.Akin (s : Sanitizer) (b b' : Backend) : Prop where
  delay : ∀ op, (b.behaviour op).delay = (b'.behaviour op).delay
  result : ∀ op, (∀ sql, op ≠ .execute sql) → (b.behaviour op).result = (b'.behaviour op).result
  execute : ∀ sql, Both (Execution.Indistinct s) (b.behaviour (.execute sql)).result
    (b'.behaviour (.execute sql)).result

namespace QueryResult

/-- Results that are the same but for what replacements hide. -/
structure Indistinct (s : Sanitizer) (r r' : QueryResult) : Prop where
  columns : r.columns = r'.columns
  affected : r.rowsAffected = r'.rowsAffected
  error : r.error = r'.error
  hidden : s.rows r.rows = s.rows r'.rows

theorem indistinct_ofExecution {s : Sanitizer} {x x' : Backend.Execution} (h : x.Indistinct s x') :
    (ofExecution x).Indistinct s (ofExecution x') where
  columns := h.columns
  affected := by
    unfold ofExecution
    simp only [List.length_map, h.affected, h.count]
  error := rfl
  hidden := h.hidden

theorem Indistinct.sanitized {s : Sanitizer} {r r' : QueryResult} (h : r.Indistinct s r') :
    { r with rows := s.rows r.rows } = { r' with rows := s.rows r'.rows } := by
  rw [h.columns, h.affected, h.error, h.hidden]

end QueryResult

/-! ## Guardrails are shown the same -/

namespace Guardrail

variable (q : Likeness) (phase : Phase)

theorem twin_entry (e : Entry) (text : String) :
    Twin q (Both Eq) (e.consult phase text).run (e.consult phase text).run :=
  .deadline fun _ => .consult fun _ => .done (.of_eq rfl)

theorem twin_consultAll (es : List Entry) (text : String) :
    Twin q (Both Eq) (consultAll phase es text).run (consultAll phase es text).run := by
  induction es generalizing text with
  | nil => exact .done (.ok rfl)
  | cons e es ih =>
      unfold consultAll
      split
      · refine (twin_entry q phase e text).attempt_bind fun text' _ ht => ?_
        subst ht
        exact ih text'
      · exact ih text

end Guardrail

/-! ## Calls -/

namespace Pipeline

/-- Replies that belong together as far as replacements go: the rows of a statement may differ. -/
def Hides (s : Sanitizer) : Likeness
  | .execute _ => fun x x' => match x, x' with
    | .answered d, .answered d' => Both (Backend.Execution.Indistinct s) d d'
    | .late e, .late e' => e = e'
    | _, _ => False
  | .begin _ => Eq
  | .commit => Eq
  | .rollback => Eq
  | .listTables _ => Eq
  | .describeTable _ _ => Eq

theorem holds_of_akin {s : Sanitizer} {b b' : Backend} (h : b.Akin s b') : (Hides s).Holds b b' where
  delay := h.delay
  answered op := by
    cases op with
    | execute sql => exact h.execute sql
    | _ => exact congrArg Reply.answered (h.result _ (fun _ hc => nomatch hc))
  late op e := by
    cases op <;> rfl

variable (p : Pipeline) (q : Likeness)

theorem twin_consult (phase : Guardrail.Phase) (text : String) :
    Twin q (Both Eq) (p.consult phase text).run (p.consult phase text).run := by
  change Twin q (Both Eq) ((p.guardrails.consult phase text).run >>= _) _
  refine (Guardrail.twin_consultAll q phase _ text).bind fun d d' hd => .done (.of_eq ?_)
  cases hd with
  | ok h => rw [h]
  | error why => rfl

theorem twin_deadline (span : Duration) :
    Twin q (Both Eq) (deadline span).run (deadline span).run := .deadline fun _ => .done (.ok rfl)

variable {q}

/-- What is asked of the database comes back alike if the replies do. -/
theorem twin_perform (op : Backend.Operation) (r : op.Answer → op.Answer → Prop)
    (limit : Duration) (until' : Option Instant)
    (h : ∀ x x', q op x x' → Both r (ofReply limit x) (ofReply limit x')) :
    Twin q (Both r) (perform limit until' op).run (perform limit until' op).run :=
  .perform fun x x' hx => .done (h x x' hx)

theorem both_ofReply_execute {s : Sanitizer} (limit : Duration) (sql : String)
    {x x' : Reply Backend.Execution} (h : Hides s (.execute sql) x x') :
    Both (Backend.Execution.Indistinct s) (ofReply limit x) (ofReply limit x') := by
  cases x with
  | answered d =>
      cases x' with
      | answered d' =>
          cases h with
          | ok hd => exact .ok hd
          | error why => exact .error _
      | late e => cases h
  | late e =>
      cases x' with
      | answered d => cases h
      | late e' =>
          cases h
          cases e <;> exact .error _

/-- What happens in a transaction comes to results that are the same but for what is hidden. -/
theorem twin_inTransaction (ha : p.guardrails.after = []) (limit : Duration) (until' : Instant)
    (sql : String) :
    Twin (Hides p.sanitizer) (Both (QueryResult.Indistinct p.sanitizer))
      (p.inTransaction limit until' sql).run (p.inTransaction limit until' sql).run := by
  have hexecute := twin_perform (.execute sql) (Backend.Execution.Indistinct p.sanitizer) limit
    (some until') fun x x' hx => both_ofReply_execute limit sql hx
  unfold inTransaction
  refine hexecute.attempt_bind fun x x' hx => ?_
  rw [ha]
  exact .done (.ok (QueryResult.indistinct_ofExecution hx))

/-- Results that are the same but for what is hidden are the same once they are committed. -/
theorem twin_close (limit : Duration) {d d' : Except Fault QueryResult}
    (h : Both (QueryResult.Indistinct p.sanitizer) d d') :
    Twin (Hides p.sanitizer) (Both Eq) (p.close limit d).run (p.close limit d').run := by
  cases h with
  | error why => exact .perform fun _ _ _ => .done (.error why)
  | @ok r r' hr =>
      have hcommit := twin_perform (q := Hides p.sanitizer) .commit Eq limit none fun x x' hx =>
        .of_eq (congrArg (ofReply limit) hx)
      refine hcommit.attempt_bind fun _ _ _ => ?_
      rw [hr.sanitized]
      exact .done (.ok rfl)

theorem twin_transact (ha : p.guardrails.after = []) (sql : String) :
    Twin (Hides p.sanitizer) (Both Eq) (p.transact sql).run (p.transact sql).run := by
  unfold transact
  refine (twin_deadline _ _).attempt_bind fun until' _ hu => ?_
  subst hu
  refine (twin_perform _ Eq _ _ fun x x' hx => .of_eq (congrArg (ofReply _) hx)).attempt_bind
    fun _ _ _ => ?_
  -- The outcome inside is not taken apart here: a failure is closed as well as a result.
  let inside : Attempt (Except Fault QueryResult) :=
    ExceptT.lift (p.inTransaction (p.timeouts.select sql) until' sql).run
  have hinside : Twin (Hides p.sanitizer) (Both (Both (QueryResult.Indistinct p.sanitizer)))
      inside.run inside.run := by
    rw [ExceptT.run_lift, map_eq_pure_bind]
    exact (p.twin_inTransaction ha _ until' sql).bind fun d d' hd => .done (.ok hd)
  exact hinside.attempt_bind fun d d' hd => p.twin_close _ hd

theorem twin_statement (ha : p.guardrails.after = []) (sql : String) :
    Twin (Hides p.sanitizer) (Both Eq) (p.statement sql).run (p.statement sql).run := by
  unfold statement
  refine (p.twin_consult _ .before sql).attempt_bind fun text _ ht => ?_
  subst ht
  split
  · exact .done (.error _)
  · exact p.twin_transact ha text

theorem twin_execute (ha : p.guardrails.after = []) (sql : String) :
    Twin (Hides p.sanitizer) Eq (p.execute sql).work (p.execute sql).work := by
  refine (p.twin_statement ha sql).bind fun d d' hd => .done ?_
  cases hd with
  | ok h => rw [h]
  | error why => rfl

/-- What a call that executes a statement answers, if it does, when it gets a slot at an instant or
gets none. -/
def response? (p : Pipeline) (c : Context) (b : Backend) (sql : String) :
    Option Instant → Option Answer
  | none => some (p.execute sql).exhausted
  | some start => p.answer? c b sql start

theorem value?_eq_outcome? {α : Type} (x : Progress α) : x.value? = x.outcome?.bind Prod.snd := by
  cases x <;> rfl

/-- If no guardrail sees the result of a statement, two databases whose rows are the same once the
replacements are made get the same answer for it, whatever the statement, the context and the limit
on the size of the rows. At every instant of the call the same has been asked of them, and it ends at
the same instant. -/
theorem execute_discloses_sanitized {p : Pipeline} {b b' : Backend} (h : b.Akin p.sanitizer b')
    (ha : p.guardrails.after = []) (c : Context) (sql : String) :
    (∀ slot, p.response? c b sql slot = p.response? c b' sql slot) ∧
    ∀ horizon start,
      (run c b horizon (p.execute sql).work start).1 =
        (run c b' horizon (p.execute sql).work start).1 ∧
      (run c b horizon (p.execute sql).work start).2.outcome? =
        (run c b' horizon (p.execute sql).work start).2.outcome? := by
  have hrun : ∀ horizon start, Agree Eq (run c b horizon (p.execute sql).work start)
      (run c b' horizon (p.execute sql).work start) :=
    (p.twin_execute ha sql).agrees (holds_of_akin h) c
  refine ⟨fun slot => ?_, fun horizon start => ⟨(hrun horizon start).1,
    (hrun horizon start).2.outcome?_eq⟩⟩
  cases slot with
  | none => rfl
  | some start =>
      change (run c b none (p.execute sql).work start).2.value? = _
      rw [value?_eq_outcome?, (hrun none start).2.outcome?_eq, ← value?_eq_outcome?]
      rfl

/-- Every letter of a result is replaced, and a result may be four bytes long. -/
def concealing : Pipeline :=
  { alone with
    sanitizer := ⟨(Pattern.ofString? "[a-z]").toList.map (·, "x")⟩
    maxResultBytes := 4 }

/-- A secret and another one of its length come to the same answer, though it begins with what is
too long for the limit. -/
theorem execute_discloses_sanitized_truncated :
    (answering ⟨["a"], [[.text "ab"]], 0⟩).Akin concealing.sanitizer
      (answering ⟨["a"], [[.text "yz"]], 0⟩) ∧
    concealing.maxResultBytes < (QueryResult.rowsJson (concealing.sanitizer.rows
      (QueryResult.ofExecution ⟨["a"], [[.text "ab"]], 0⟩).rows)).text.utf8ByteSize ∧
    ∀ slot,
      concealing.response? .unbounded (answering ⟨["a"], [[.text "ab"]], 0⟩) "SELECT 1" slot =
        concealing.response? .unbounded (answering ⟨["a"], [[.text "yz"]], 0⟩) "SELECT 1" slot := by
  have hhidden : ∀ text, concealing.sanitizer.text text = "xx" →
      concealing.sanitizer.rows (QueryResult.ofExecution ⟨["a"], [[.text text]], 0⟩).rows =
        [[("a", .str "xx")]] := by
    intro text ht
    rw [Sanitizer.rows_eq]
    change [[("a", Json.str (concealing.sanitizer.text text))]] = _
    rw [ht]
  have hfirst := hhidden "ab" (by decide +kernel)
  have hakin : (answering ⟨["a"], [[.text "ab"]], 0⟩).Akin concealing.sanitizer
      (answering ⟨["a"], [[.text "yz"]], 0⟩) := by
    refine ⟨fun op => by cases op <;> rfl, fun op hop => ?_, fun sql => .ok ?_⟩
    · cases op with
      | execute sql => exact absurd rfl (hop sql)
      | _ => rfl
    · exact ⟨rfl, rfl, rfl, hfirst.trans (hhidden "yz" (by decide +kernel)).symm⟩
  refine ⟨hakin, ?_, (execute_discloses_sanitized hakin rfl .unbounded "SELECT 1").1⟩
  rw [hfirst]
  decide +kernel

end Pipeline

end SqlGate
