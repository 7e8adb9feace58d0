import SqlGate.Proofs.Pipeline.Disclosure
import SqlGate.Proofs.Pipeline.Startup
import SqlGate.Proofs.Pipeline.Timeouts
import SqlGate.Proofs.Pipeline.Truncation

/-!
# Hints are put on an error once

An error can get into the result of a statement in three ways: the call stops, the result is cut, or
a guardrail after the statement writes one into it. Before hints are put on it, it is a raw error
(`RawError`), and a call has one at most. What the caller gets is the raw error with the messages of
those rules behind it that match the raw error (`errors_explained_once`); so a hint is never matched
itself, and is never put on twice.

The calls that go well are those that commit (`Committed`), which is found step by step
(`ends_statement_ok`) as their failures are.
-/

namespace SqlGate

open Config

/-! ## The hints of a configuration -/

/-- Whether the pattern of a rule matches an error. -/
def Config.DiagnosticRule.concerns (r : DiagnosticRule) (error : String) : Bool :=
  (Pattern.ofString? r.pattern).any (·.isMatch error)

/-- The messages of the rules that match an error, in the order of the rules. -/
def Config.hintsOn (c : Config) (error : String) : List String :=
  (c.diagnostics.filter (·.concerns error)).map (·.message)

/-- An error with the messages of the rules that match it, one to a line behind an empty line, or
alone if they come to nothing. -/
def Config.explained (c : Config) (error : String) : String :=
  let hints := "\n".intercalate (c.hintsOn error)
  if hints = "" then error else error ++ "\n\n" ++ hints

theorem Diagnostics.hints_eq {c : Config} {d : Diagnostics} (h : ofConfig c.diagnostics = .ok d)
    (error : String) : d.hints error = "\n".intercalate (c.hintsOn error) := by
  obtain ⟨rules, hrules, hd⟩ := bind_eq_ok_iff.1 h
  obtain rfl := Except.ok.inj hd
  -- Of each rule there is its message, if its pattern matches.
  have hmessages : rules.map (fun r => if r.1.isMatch error then some r.2 else none) =
      c.diagnostics.map (fun r => if r.concerns error then some r.message else none) := by
    refine map_eq_of_forItems (fun i r y hy => ?_) hrules
    obtain ⟨p, hp, hy⟩ := bind_eq_ok_iff.1 hy
    obtain rfl := Except.ok.inj hy
    rw [DiagnosticRule.concerns, compile_eq_ok_iff.1 hp, Option.any_some]
  have hfilterMap := congrArg (List.filterMap id) hmessages
  rw [List.filterMap_map, List.filterMap_map] at hfilterMap
  unfold Diagnostics.hints hintsOn
  rw [← List.filterMap_eq_map, ← List.filterMap_eq_map, List.filterMap_filter,
    List.filterMap_filter]
  exact congrArg "\n".intercalate hfilterMap

theorem Diagnostics.augment_eq {c : Config} {d : Diagnostics} (h : ofConfig c.diagnostics = .ok d)
    (error : String) : d.augment error = c.explained error := by
  simp only [augment, Config.explained, hints_eq h, String.isEmpty_iff]

/-! ## What is put in the place of a text -/

namespace Guardrail

/-- One of the guardrails of a list was shown something, as is seen of its phase, and accepted it
with a text in its place. -/
inductive Replaced (c : Context) (phase : Phase) (es : List Entry) (seen : List Work.Entry)
    (text : String) : Prop where
  | intro {e : Entry} {payload : String} {t t' limit : Instant} {r : Response} (he : e ∈ es)
    (hs : ⟨t, .consulted e.guardrail.name payload⟩ ∈ seen)
    (hl : Clock.after? t e.timeout = some limit)
    (hd : Decides (c.within (some limit)) e.guardrail payload t (.ok r) t') (ha : r.accept = true)
    (hr : r.replacement phase = some text) : Replaced c phase es seen text

variable {c : Context} {phase : Phase} {es es' : List Entry} {seen seen' : List Work.Entry}
  {text text' : String} {t t' : Instant}

theorem Replaced.mono (h : Replaced c phase es seen text) (hes : es ⊆ es') (hseen : seen ⊆ seen') :
    Replaced c phase es' seen' text := by
  obtain ⟨he, hs, hl, hd, ha, hr⟩ := h
  exact ⟨hes he, hseen hs, hl, hd, ha, hr⟩

/-- The text that a phase ends with is the one it began with, or a guardrail has put it there. -/
theorem Course.eq_or_replaced (h : Course c phase es text t seen (some (.ok text')) t') :
    text' = text ∨ Replaced c phase es seen text' := by
  generalize hv : some (Except.ok text') = v at h
  induction h with
  | done text t => exact .inl (Except.ok.inj (Option.some.inj hv))
  | skipped hm rest ih =>
      exact (ih hv).imp_right fun h => h.mono (List.subset_cons_self _ _) (List.Subset.refl _)
  | uncountable es hm hl => cases hv
  | @stopped e es text t t' limit decision why hm hl hd hr => cases hv
  | @accepted e es text t t₁ t' limit r seen v hm hl hd ha rest ih =>
      rcases ih hv with heq | h
      · cases hr : r.replacement phase with
        | none => exact .inl (by rw [heq, hr, Option.getD_none])
        | some text₁ =>
            rw [hr, Option.getD_some] at heq
            exact .inr ⟨List.mem_cons_self, List.mem_cons_self, hl, hd, ha, heq ▸ hr⟩
      · exact .inr (h.mono (List.subset_cons_self _ _) (List.subset_cons_self _ _))

end Guardrail

/-! ## Texts that are cut -/

namespace Text.Utf8

theorem eq_of_begins {p q : String} (h : p.toList <+: q.toList)
    (hsize : q.utf8ByteSize ≤ p.utf8ByteSize) : p = q := by
  obtain ⟨rest, hrest⟩ := h
  have hq : q = p ++ String.ofList rest := by
    rw [← String.toList_inj, String.toList_append, String.toList_ofList, hrest]
  rw [hq, String.utf8ByteSize_append] at hsize
  have hempty : String.ofList rest = "" := String.utf8ByteSize_eq_zero_iff.1 (by omega)
  rw [hq, hempty, String.append_empty]

/-- There is one longest beginning. -/
theorem LongestBeginning.unique {s p q : String} {maxBytes : Nat}
    (h : LongestBeginning s maxBytes p) (h' : LongestBeginning s maxBytes q) : p = q := by
  rcases List.prefix_or_prefix_of_prefix h.begins h'.begins with hpq | hqp
  · exact eq_of_begins hpq (h.longest q h'.begins h'.fits)
  · exact (eq_of_begins hqp (h'.longest p h.begins h.fits)).symm

end Text.Utf8

/-! ## Calls that go well -/

/-- A database that gives executions as a database can give them. -/
def Backend.Valid (b : Backend) : Prop :=
  ∀ sql x, (b.behaviour (.execute sql)).result = .ok x → x.Valid

namespace Pipeline

open Work QueryResult

variable {p : Pipeline} {c : Context} {b : Backend} {sql : String} {start t t' : Instant}

/-- The transaction of a call is opened for a text, within the time that there is until an instant:
the guardrails before the statement have left that text, and the policy accepts it. -/
inductive Opened (p : Pipeline) (c : Context) (b : Backend) (sql : String) (start : Instant)
    (text : String) (until' t : Instant) : Prop where
  | intro {s : Instant} (hg : Ends c b (p.consult .before sql).run start (.ok text) s)
    (hp : p.policy.check text = .ok ())
    (hl : Clock.after? s (p.timeouts.select text) = some until')
    (hb : Ends c b (p.enter until' text).run s (.ok ()) t)

/-- The transaction of a call is committed, with a result from inside it. -/
inductive Committed (p : Pipeline) (c : Context) (b : Backend) (sql : String) (start : Instant)
    (r : QueryResult) (t : Instant) : Prop where
  | intro {text : String} {until' t₁ t₂ : Instant} (ho : p.Opened c b sql start text until' t₁)
    (hx : Ends c b (p.inTransaction (p.timeouts.select text) until' text).run t₁ (.ok r) t₂)
    (hc : Ends c b (perform (p.timeouts.select text) none .commit).run t₂ (.ok ()) t)

theorem Opened.unique {text text' : String} {until' until'' : Instant}
    (h : p.Opened c b sql start text until' t) (h' : p.Opened c b sql start text' until'' t') :
    text = text' ∧ until' = until'' ∧ t = t' := by
  obtain ⟨hg, -, hl, hb⟩ := h
  obtain ⟨hg', -, hl', hb'⟩ := h'
  obtain ⟨htext, rfl⟩ := hg.unique hg'
  obtain rfl := Except.ok.inj htext
  obtain rfl := Option.some.inj (hl.symm.trans hl')
  exact ⟨rfl, rfl, (hb.unique hb').2⟩

theorem Committed.unique {r r' : QueryResult} (h : p.Committed c b sql start r t)
    (h' : p.Committed c b sql start r' t') : r = r' := by
  obtain ⟨ho, hx, -⟩ := h
  obtain ⟨ho', hx', -⟩ := h'
  obtain ⟨rfl, rfl, rfl⟩ := ho.unique ho'
  exact Except.ok.inj (hx.unique hx').1

theorem ends_close_ok {span : Duration} {v : Except Fault QueryResult} {r' : QueryResult} :
    Ends c b (p.close span v).run t (.ok r') t' ↔
      ∃ r, v = .ok r ∧ Ends c b (perform span none .commit).run t (.ok ()) t' ∧
        r' = { r with rows := p.sanitizer.rows r.rows }.cap p.maxResultBytes := by
  cases v with
  | error why =>
      unfold close
      rw [ends_lift_bind]
      constructor
      · rintro ⟨_, s, -, hthrow⟩
        cases (ends_pure.1 hthrow).1
      · rintro ⟨r, hr, -⟩
        cases hr
  | ok r =>
      refine ends_attempt_bind_ok.trans ?_
      constructor
      · rintro ⟨_, s, hc, hcap⟩
        obtain ⟨hr', rfl⟩ := ends_pure.1 hcap
        exact ⟨r, rfl, hc, (Except.ok.inj hr').symm⟩
      · rintro ⟨_, ⟨⟩, hc, rfl⟩
        exact ⟨(), t', hc, ends_pure.2 ⟨rfl, rfl⟩⟩

/-- A statement goes well if its transaction is committed. Only then the result is sanitized and
cut. -/
theorem ends_statement_ok {r' : QueryResult} :
    Ends c b (p.statement sql).run start (.ok r') t ↔ ∃ r, p.Committed c b sql start r t ∧
      r' = { r with rows := p.sanitizer.rows r.rows }.cap p.maxResultBytes := by
  refine ends_attempt_bind_ok.trans ?_
  constructor
  · rintro ⟨text, s, hg, h⟩
    cases hp : p.policy.check text with
    | error why =>
        rw [hp] at h
        cases (ends_pure.1 h).1
    | ok u =>
        rw [hp] at h
        obtain ⟨until', s', hd, h⟩ := ends_attempt_bind_ok.1 h
        obtain ⟨u', hl, hu, rfl⟩ := ends_deadline.1 hd
        obtain rfl := Except.ok.inj hu
        obtain ⟨_, t₁, hb, h⟩ := ends_attempt_bind_ok.1 h
        obtain ⟨v, t₂, hx, h⟩ := ends_lift_bind.1 h
        obtain ⟨r, rfl, hc, hr'⟩ := ends_close_ok.1 h
        exact ⟨r, ⟨⟨hg, hp, hl, hb⟩, hx, hc⟩, hr'⟩
  · rintro ⟨r, ⟨@⟨s, hg, hp, hl, hb⟩, hx, hc⟩, hr'⟩
    refine ⟨_, s, hg, ?_⟩
    rw [hp]
    refine ends_attempt_bind_ok.2 ⟨_, s, ends_deadline.2 ⟨_, hl, rfl, rfl⟩,
      ends_attempt_bind_ok.2 ⟨(), _, hb, ends_lift_bind.2 ⟨_, _, hx, ends_close_ok.2 ?_⟩⟩⟩
    exact ⟨r, rfl, hc, hr'⟩

/-! ## Results that guardrails write -/

/-- The result of a call is read from a text that a guardrail after the statement has put in the
place of what it was shown. -/
inductive Rewritten (p : Pipeline) (c : Context) (b : Backend) (sql : String) (start : Instant)
    (r : QueryResult) : Prop where
  | intro {text text' : String} {until' t₁ t₂ t₃ : Instant} {x : Backend.Execution}
    {seen : List Work.Entry} (ho : p.Opened c b sql start text until' t₁)
    (hx : Ends c b (perform (p.timeouts.select text) (some until') (.execute text)).run t₁ (.ok x)
      t₂)
    (hg : Guardrail.Course c .after p.guardrails.after (ofExecution x).text t₂ seen
      (some (.ok text')) t₃)
    (hw : Guardrail.Replaced c .after p.guardrails.after seen text') (hr : ofText text' = .ok r)

theorem result_of_ends {op : Backend.Operation} {span : Duration} {limit : Option Instant}
    {a : op.Answer} (h : Ends c b (perform span limit op).run t (.ok a) t') :
    (b.behaviour op).result = .ok a := by
  obtain ⟨reply, hreply, hr⟩ := ends_perform.1 h
  cases hreply with
  | answered hw =>
      cases hresult : (b.behaviour op).result with
      | ok a' =>
          rw [hresult] at hr
          rw [Except.ok.inj hr]
      | error why =>
          rw [hresult] at hr
          cases hr
  | @late t e hw =>
      obtain ⟨why, hwhy⟩ := ofReply_late (α := op.Answer) span e
      cases hr.symm.trans hwhy

/-- The result of an execution has no error, and reading it again does not give it one. -/
theorem error_of_ofText {x : Backend.Execution} {r : QueryResult} (h : x.Valid)
    (hr : ofText (ofExecution x).text = .ok r) : r.error = none := by
  have hread := toOption_ofText (proper_ofExecution h) (rowsAffected_ofExecution_lt h)
  rw [hr] at hread
  obtain ⟨rows, -, hrows⟩ := Option.map_eq_some_iff.1 hread.symm
  rw [← hrows]
  rfl

/-- The error in a result from inside a transaction was written by a guardrail. -/
theorem Committed.rewritten {r : QueryResult} (h : p.Committed c b sql start r t) (hb : b.Valid)
    (he : r.error.isSome) : p.Rewritten c b sql start r := by
  obtain ⟨ho, hx, -⟩ := h
  obtain ⟨x, t₂, hexecute, hx⟩ := ends_attempt_bind_ok.1 hx
  dsimp only at hx
  split_ifs at hx
  · obtain ⟨hr, -⟩ := ends_pure.1 hx
    rw [← Except.ok.inj hr] at he
    cases he
  · obtain ⟨text', t₃, hconsult, hread⟩ := ends_attempt_bind_ok.1 hx
    have hr : ofText text' = .ok r := by
      split at hread
      next r' hr' => rw [hr', Except.ok.inj (ends_pure.1 hread).1]
      next => cases (ends_pure.1 hread).1
    obtain ⟨seen, hg⟩ := course_of_run (Prod.ext rfl hconsult)
    refine .intro ho hexecute hg (hg.eq_or_replaced.resolve_left fun htext => ?_) hr
    have hnone := error_of_ofText (hb _ x (result_of_ends hexecute)) (htext ▸ hr)
    rw [hnone] at he
    cases he

/-! ## Errors before hints are put on them -/

/-- The error of a call before hints are put on it. The call gets no slot; or it stops; or its
transaction is committed, and then its sanitized rows are too long, or they are not and a guardrail
has written an error into the result. -/
inductive RawError (p : Pipeline) (c : Context) (b : Backend) (sql : String) :
    Option Instant → String → Prop where
  | exhausted : RawError p c b sql none p.exhausted.message
  | stopped {start t : Instant} {why : Fault}
    (h : Ends c b (p.statement sql).run start (.error why) t) :
    RawError p c b sql (some start) why.message
  | cut {start t : Instant} {r : QueryResult} {beginning : String}
    (h : p.Committed c b sql start r t)
    (hlong : p.maxResultBytes < (rowsJson (p.sanitizer.rows r.rows)).text.utf8ByteSize)
    (hb : Text.Utf8.LongestBeginning (rowsJson (p.sanitizer.rows r.rows)).text p.maxResultBytes
      beginning) :
    RawError p c b sql (some start) (beginning ++ cutMark)
  | written {start t : Instant} {r : QueryResult} {raw : String}
    (h : p.Committed c b sql start r t)
    (hfits : (rowsJson (p.sanitizer.rows r.rows)).text.utf8ByteSize ≤ p.maxResultBytes)
    (hw : p.Rewritten c b sql start r) (he : r.error = some raw) :
    RawError p c b sql (some start) raw

theorem Committed.not_ends_error {r : QueryResult} {why : Fault}
    (h : p.Committed c b sql start r t) : ¬ Ends c b (p.statement sql).run start (.error why) t' := by
  intro herror
  cases (herror.unique (ends_statement_ok.2 ⟨r, h, rfl⟩)).1

/-- A call that stops has its failure as its raw error. -/
theorem rawError_of_error {why : Fault} (h : Ends c b (p.statement sql).run start (.error why) t)
    (raw : String) : p.RawError c b sql (some start) raw ↔ raw = why.message := by
  constructor
  · intro hraw
    cases hraw with
    | stopped h' => rw [Except.error.inj (h.unique h').1]
    | cut h' => exact absurd h h'.not_ends_error
    | written h' => exact absurd h h'.not_ends_error
  · rintro rfl
    exact .stopped h

/-- A call that commits has the error of its result as its raw error. -/
theorem rawError_of_committed {r : QueryResult} (h : p.Committed c b sql start r t) (hb : b.Valid)
    (raw : String) : p.RawError c b sql (some start) raw ↔
      ({ r with rows := p.sanitizer.rows r.rows }.cap p.maxResultBytes).error = some raw := by
  rcases Nat.lt_or_ge p.maxResultBytes
    (rowsJson (p.sanitizer.rows r.rows)).text.utf8ByteSize with hlong | hfits
  · obtain ⟨beginning, hbeginning, hlongest, -⟩ := Text.Utf8.exists_beginning? hlong
    rw [cap_of_lt hlong hbeginning, Option.some.injEq]
    constructor
    · intro hraw
      cases hraw with
      | stopped herror => exact absurd herror h.not_ends_error
      | cut h' hlong' hlongest' =>
          obtain rfl := h.unique h'
          rw [hlongest.unique hlongest']
      | written h' hfits' =>
          obtain rfl := h.unique h'
          exact absurd hfits' (Nat.not_le.2 hlong)
    · rintro rfl
      exact .cut h hlong hlongest
  · rw [cap_of_le hfits]
    constructor
    · intro hraw
      cases hraw with
      | stopped herror => exact absurd herror h.not_ends_error
      | cut h' hlong' =>
          obtain rfl := h.unique h'
          exact absurd hfits (Nat.not_le.2 hlong')
      | written h' hfits' hw he =>
          obtain rfl := h.unique h'
          exact he
    · intro he
      exact .written h hfits (h.rewritten hb (Option.isSome_of_eq_some he)) he

/-! ## What the caller gets -/

theorem exists_ends_of_answer? {a : Answer} (h : p.answer? c b sql start = some a) :
    ∃ d t, Ends c b (p.statement sql).run start d t ∧ a = .result (p.conclude d) := by
  rw [answer?_eq] at h
  obtain ⟨d, hd, rfl⟩ := Option.map_eq_some_iff.1 h
  unfold Ends
  cases hrun : (run c b none (p.statement sql).run start).2 with
  | waiting next =>
      rw [hrun] at hd
      cases hd
  | ended t v =>
      rw [hrun] at hd
      exact ⟨d, t, congrArg (Progress.ended t) hd, rfl⟩

/-- Whatever the guardrails are, a call that executes a statement answers with a result. If there is
an error in it, the call has one raw error, and the error is that one with the messages of the rules
of the configuration that match it. If there is none in it, the call has no raw error, and its
transaction was committed. -/
theorem errors_explained_once {programs : Guardrail.Programs} {config : Config} {p : Pipeline}
    (h : ofConfig programs config = .ok p) (guardrails : Guardrail.Chain) (c : Context)
    {b : Backend} (hb : b.Valid) (sql : String) (slot : Option Instant) {a : Answer}
    (ha : { p with guardrails }.response? c b sql slot = some a) :
    let p' := { p with guardrails }
    ∃ r, a = .result r ∧
      (∀ e, r.error = some e → ∃ raw, (∀ raw', p'.RawError c b sql slot raw' ↔ raw' = raw) ∧
        e = config.explained raw) ∧
      (r.error = none → (∀ raw, ¬ p'.RawError c b sql slot raw) ∧
        ∃ start r' t, slot = some start ∧ p'.Committed c b sql start r' t) := by
  intro p'
  have haugment : ∀ raw, p'.diagnostics.augment raw = config.explained raw :=
    Diagnostics.augment_eq (ofConfig_eq_ok_iff.1 h).2.diagnostics
  -- A failure is told with the hints on its wording.
  have hfailed : ∀ why : Fault, (∀ raw', p'.RawError c b sql slot raw' ↔ raw' = why.message) →
      ∀ e, (p'.conclude (.error why)).error = some e →
        ∃ raw, (∀ raw', p'.RawError c b sql slot raw' ↔ raw' = raw) ∧ e = config.explained raw :=
    fun why hraw e he => ⟨why.message, hraw, (Option.some.inj he).symm.trans (haugment _)⟩
  cases slot with
  | none =>
      obtain rfl := Option.some.inj ha
      refine ⟨_, rfl, hfailed p'.exhausted fun raw' => ⟨fun hraw => ?_, ?_⟩, nofun⟩
      · cases hraw
        rfl
      · rintro rfl
        exact .exhausted
  | some start =>
      obtain ⟨d, t, hends, rfl⟩ := exists_ends_of_answer? (p := p') ha
      cases d with
      | error why => exact ⟨_, rfl, hfailed why (rawError_of_error hends), nofun⟩
      | ok r' =>
          obtain ⟨r, hcommitted, rfl⟩ := ends_statement_ok.1 hends
          have hraw := rawError_of_committed hcommitted hb
          refine ⟨_, rfl, fun e he => ?_,
            fun hnone => ⟨fun raw hr => ?_, start, r, t, rfl, hcommitted⟩⟩
          · obtain ⟨raw, hr, rfl⟩ := Option.map_eq_some_iff.1 he
            refine ⟨raw, fun raw' => ?_, haugment raw⟩
            rw [hraw, hr, Option.some.injEq]
            exact eq_comm
          · rw [hraw] at hr
            rw [conclude, explain, hr] at hnone
            cases hnone

/-- A configuration with a rule for refusals, and one that matches its message. -/
def hinting : Config :=
  { single with diagnostics := [⟨"blocked", "ask for it"⟩, ⟨"ask", "or do not"⟩] }

/-- A statement is refused, and the hint on that is not taken for an error. -/
theorem errors_explained_once_refused : ∃ p r,
    ofConfig (fun _ _ _ => .notStarted "") hinting = .ok p ∧
    { p with guardrails := ⟨[], []⟩ }.response? .unbounded stuck "DROP TABLE t" (some 0) =
      some (.result r) ∧
    r.error = some ("DROP blocked: dropping database objects is not allowed " ++
      "(set policy.allow_drop to allow)\n\nask for it") := by
  obtain ⟨p, hp⟩ : ∃ p, ofConfig (fun _ _ _ => .notStarted "") hinting = .ok p :=
    (starts_of_validate _ (by decide +kernel)).2.1.2 (by decide)
  let p' : Pipeline := { p with guardrails := ⟨[], []⟩ }
  have hpolicy : p'.policy = .strict := (ofConfig_eq_ok_iff.1 hp).2.policy.symm
  have hcheck : p'.policy.check "DROP TABLE t" = .error (.blocked .drop) := by
    rw [hpolicy]
    decide +kernel
  have hstatement : p'.statement "DROP TABLE t" = throw (.policy (.blocked .drop)) := by
    have hconsult : p'.consult .before "DROP TABLE t" = pure "DROP TABLE t" := rfl
    rw [statement, hconsult, pure_bind, hcheck]
  have hends : Ends .unbounded stuck (p'.statement "DROP TABLE t").run 0
      (.error (.policy (.blocked .drop))) 0 := by
    rw [hstatement]
    rfl
  have hanswer : p'.response? .unbounded stuck "DROP TABLE t" (some 0) =
      some (.result (p'.conclude (.error (.policy (.blocked .drop))))) := by
    rw [response?, answer?_eq, hends]
    rfl
  have hvalid : stuck.Valid := fun _ _ hx => by cases hx
  obtain ⟨r, hr, herror, -⟩ := errors_explained_once hp ⟨[], []⟩ .unbounded hvalid
    "DROP TABLE t" (some 0) hanswer
  obtain rfl := Answer.result.inj hr
  obtain ⟨raw, hraw, he⟩ := herror _ rfl
  obtain rfl := (hraw _).1 (.stopped hends)
  refine ⟨p, _, hp, hanswer, congrArg some (he.trans ?_)⟩
  decide +kernel

end Pipeline

end SqlGate
