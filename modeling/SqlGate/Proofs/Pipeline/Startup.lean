import SqlGate.Postgres
import SqlGate.Proofs.Config.Validation
import SqlGate.Proofs.Pipeline.Bound

/-!
# What validation is worth at the start

A valid configuration has all that the parts of a pipeline are built from: guardrails, time limits,
replacements and hints never fail to come out of one. Every span in the pipeline is one of the
configuration, so none of them is zero.

The slots are the exception. Validation only says that there is one; that they can be counted is not
asked before the pool is made. So the pipeline is there exactly if the slots can be counted
(`starts_of_validate`).

Nor is it asked how long a span is. The limits of a pipeline are the spans of its configuration,
unchanged (`limits_eq`), and a long one is of no use: its end cannot be counted, or the server does
not take it (`limits_of_validate`).
-/

namespace SqlGate

open Config

variable {programs : Guardrail.Programs} {c : Config}

/-! ## Patterns, each with a value -/

namespace Config

variable {α β : Type} {list : String} {pattern : α → String} {value : α → β} {xs : List α}
  {ys : List (Pattern × β)}

theorem exists_compiled_iff : (∃ ys, forItems (fun i x => do
      return (← compile (itemField list i "pattern") (pattern x), value x)) xs = .ok ys) ↔
    ∀ x ∈ xs, Pattern.isValid (pattern x) := by
  refine exists_forItems_iff (fun i x => ?_) xs
  simp only [bind_eq_ok_iff]
  rw [← exists_compile_iff]
  exact ⟨fun ⟨_, p, hp, _⟩ => ⟨p, hp⟩, fun ⟨p, hp⟩ => ⟨(p, value x), p, hp, rfl⟩⟩

theorem exists_of_mem_compiled {y : Pattern × β} (h : forItems (fun i x => do
      return (← compile (itemField list i "pattern") (pattern x), value x)) xs = .ok ys)
    (hy : y ∈ ys) : ∃ x ∈ xs, Pattern.ofString? (pattern x) = some y.1 ∧ y.2 = value x := by
  obtain ⟨i, x, hx, hfx⟩ := exists_of_mem_forItems h hy
  obtain ⟨p, hp, h⟩ := bind_eq_ok_iff.1 hfx
  cases h
  exact ⟨x, hx, compile_eq_ok_iff.1 hp, rfl⟩

end Config

/-! ## Time limits -/

namespace TimeoutSelector

variable {ts : Config.Timeouts} {t : TimeoutSelector}

theorem ofConfig_eq_ok_iff : ofConfig ts = .ok t ↔ ts.default = some t.default ∧
    forItems (fun i (r : TimeoutRule) => do
      return (← compile (itemField "timeouts.rules" i "pattern") r.pattern, r.timeout)) ts.rules =
        .ok t.rules := by
  unfold ofConfig
  cases ts.default with
  | none => exact ⟨nofun, nofun⟩
  | some d =>
      simp only [bind_eq_ok_iff, Option.some.injEq]
      constructor
      · rintro ⟨rules, h, ⟨⟩⟩
        exact ⟨rfl, h⟩
      · rintro ⟨rfl, h⟩
        exact ⟨t.rules, h, rfl⟩

theorem exists_ofConfig (hd : ts.default.isSome) (hr : ∀ r ∈ ts.rules, Pattern.isValid r.pattern) :
    ∃ t, ofConfig ts = .ok t := by
  obtain ⟨d, hd⟩ := Option.isSome_iff_exists.1 hd
  obtain ⟨rules, hrules⟩ := exists_compiled_iff.2 hr
  exact ⟨⟨rules, d⟩, ofConfig_eq_ok_iff.2 ⟨hd, hrules⟩⟩

/-- The limit of a statement is that of a rule whose pattern matches it, or the one for all. -/
theorem select_eq (h : ofConfig ts = .ok t) (sql : String) :
    ts.default = some (t.select sql) ∨ ∃ r ∈ ts.rules, r.timeout = t.select sql ∧
      ∃ p, Pattern.ofString? r.pattern = some p ∧ p.isMatch sql := by
  obtain ⟨hd, hrules⟩ := ofConfig_eq_ok_iff.1 h
  unfold select
  cases hfind : t.rules.find? fun r => r.1.isMatch sql with
  | none => exact .inl hd
  | some rule =>
      obtain ⟨r, hr, hp, htimeout⟩ :=
        exists_of_mem_compiled hrules (List.mem_of_find?_eq_some hfind)
      have hmatch : rule.1.isMatch sql = true := by simpa using List.find?_some hfind
      exact .inr ⟨r, hr, htimeout.symm, rule.1, hp, hmatch⟩

end TimeoutSelector

/-! ## Guardrails -/

namespace Guardrail

variable {defaultTimeout : Option Duration} {list : String} {i : Nat} {entry : Config.GuardrailEntry}
  {e : Entry} {g : Config.Guardrails} {chain : Chain} {phase : Phase}

theorem Entry.ofConfig_eq_ok_iff : Entry.ofConfig programs defaultTimeout list i entry = .ok e ↔
    Pattern.ofString? entry.pattern = some e.pattern ∧
      (entry.timeout <|> defaultTimeout) = some e.timeout ∧
      ofProgram programs entry.displayName entry.command entry.args = e.guardrail := by
  unfold Entry.ofConfig
  rw [bind_eq_ok_iff]
  cases entry.timeout <|> defaultTimeout with
  | none => exact ⟨fun ⟨_, _, h⟩ => (nomatch h), fun h => (nomatch h.2.1)⟩
  | some d =>
      simp only [compile_eq_ok_iff, Option.some.injEq]
      constructor
      · rintro ⟨p, hp, ⟨⟩⟩
        exact ⟨hp, rfl, rfl⟩
      · rintro ⟨hp, rfl, hguard⟩
        exact ⟨e.pattern, hp, by rw [hguard]; rfl⟩

theorem Entry.exists_ofConfig_iff :
    (∃ e, Entry.ofConfig programs defaultTimeout list i entry = .ok e) ↔
      Pattern.isValid entry.pattern ∧ (entry.timeout <|> defaultTimeout).isSome := by
  simp only [Entry.ofConfig_eq_ok_iff, Pattern.isValid, Option.isSome_iff_exists]
  constructor
  · rintro ⟨e, hpattern, htimeout, -⟩
    exact ⟨⟨_, hpattern⟩, _, htimeout⟩
  · rintro ⟨⟨pattern, hpattern⟩, timeout, htimeout⟩
    exact ⟨⟨pattern, _, timeout⟩, hpattern, htimeout, rfl⟩

theorem Chain.ofConfig_eq_ok_iff : Chain.ofConfig programs g = .ok chain ↔
    forItems (Entry.ofConfig programs g.defaultTimeout "guardrails.before") g.before =
        .ok chain.before ∧
      forItems (Entry.ofConfig programs g.defaultTimeout "guardrails.after") g.after =
        .ok chain.after := by
  unfold Chain.ofConfig
  simp only [bind_eq_ok_iff]
  constructor
  · rintro ⟨before, hbefore, after, hafter, ⟨⟩⟩
    exact ⟨hbefore, hafter⟩
  · intro ⟨hbefore, hafter⟩
    exact ⟨_, hbefore, _, hafter, rfl⟩

theorem Chain.exists_ofConfig (hbefore : ∀ e ∈ g.before, e.Valid g.defaultTimeout)
    (hafter : ∀ e ∈ g.after, e.Valid g.defaultTimeout) :
    ∃ chain, Chain.ofConfig programs g = .ok chain := by
  have hentries : ∀ (list : String) (es : List Config.GuardrailEntry),
      (∀ e ∈ es, e.Valid g.defaultTimeout) →
        ∃ ys, forItems (Entry.ofConfig programs g.defaultTimeout list) es = .ok ys := by
    intro list es hes
    have hentry : ∀ i (e : Config.GuardrailEntry),
        (∃ y, Entry.ofConfig programs g.defaultTimeout list i e = .ok y) ↔
          Pattern.isValid e.pattern ∧ (e.timeout <|> g.defaultTimeout).isSome :=
      fun i e => Entry.exists_ofConfig_iff
    refine (exists_forItems_iff hentry es).2 fun e he => ?_
    obtain ⟨d, hd, -⟩ := (hes e he).timeout
    exact ⟨(hes e he).pattern, Option.isSome_of_eq_some hd⟩
  obtain ⟨before, hb⟩ := hentries "guardrails.before" g.before hbefore
  obtain ⟨after, ha⟩ := hentries "guardrails.after" g.after hafter
  exact ⟨⟨before, after⟩, Chain.ofConfig_eq_ok_iff.2 ⟨hb, ha⟩⟩

/-- A guardrail has the time that its entry gives it, or else what there is for all. -/
theorem Chain.timeout_of_mem (h : Chain.ofConfig programs g = .ok chain)
    (he : e ∈ chain.entries phase) :
    ∃ entry ∈ g.before ++ g.after, (entry.timeout <|> g.defaultTimeout) = some e.timeout := by
  obtain ⟨hbefore, hafter⟩ := Chain.ofConfig_eq_ok_iff.1 h
  cases phase with
  | before =>
      obtain ⟨i, entry, hentry, hof⟩ := exists_of_mem_forItems hbefore he
      exact ⟨entry, List.mem_append_left _ hentry, (Entry.ofConfig_eq_ok_iff.1 hof).2.1⟩
  | after =>
      obtain ⟨i, entry, hentry, hof⟩ := exists_of_mem_forItems hafter he
      exact ⟨entry, List.mem_append_right _ hentry, (Entry.ofConfig_eq_ok_iff.1 hof).2.1⟩

end Guardrail

/-! ## Replacements and hints -/

theorem Sanitizer.exists_ofConfig {rs : List SanitizeRule}
    (h : ∀ r ∈ rs, Pattern.isValid r.pattern) : ∃ s, Sanitizer.ofConfig rs = .ok s := by
  obtain ⟨rules, hrules⟩ := exists_compiled_iff.2 h
  exact ⟨⟨rules⟩, bind_eq_ok_iff.2 ⟨rules, hrules, rfl⟩⟩

theorem Diagnostics.exists_ofConfig {rs : List DiagnosticRule}
    (h : ∀ r ∈ rs, Pattern.isValid r.pattern) : ∃ d, Diagnostics.ofConfig rs = .ok d := by
  obtain ⟨rules, hrules⟩ := exists_compiled_iff.2 h
  exact ⟨⟨rules⟩, bind_eq_ok_iff.2 ⟨rules, hrules, rfl⟩⟩

/-! ## The pipeline -/

namespace Pipeline

theorem BuiltFrom.select_isZero {p : Pipeline} (h : p.BuiltFrom programs c) (hc : c.Valid)
    (sql : String) : (p.timeouts.select sql).isZero = false := by
  rcases TimeoutSelector.select_eq h.timeouts sql with hd | ⟨r, hr, htimeout, -⟩
  · obtain ⟨d, hd', hzero⟩ := hc.timeout
    cases hd.symm.trans hd'
    exact hzero
  · rw [← htimeout]
    exact (hc.rules r hr).2

theorem BuiltFrom.timeout_isZero {p : Pipeline} (h : p.BuiltFrom programs c) (hc : c.Valid)
    {phase : Guardrail.Phase} {e : Guardrail.Entry} (he : e ∈ p.guardrails.entries phase) :
    e.timeout.isZero = false := by
  obtain ⟨entry, hentry, ht⟩ := Guardrail.Chain.timeout_of_mem h.guardrails he
  have hvalid : entry.Valid c.guardrails.defaultTimeout :=
    (List.mem_append.1 hentry).elim (hc.before entry) (hc.after entry)
  obtain ⟨d, hd, hzero⟩ := hvalid.timeout
  cases ht.symm.trans hd
  exact hzero

/-- A configuration that validation lets pass has guardrails, time limits, replacements and hints.
It has a pool, and then a pipeline, exactly if its slots can be counted; if they cannot, that is what
the start fails with. In a pipeline that there is, there is a slot, and neither a guardrail nor a
statement is left without time. -/
theorem starts_of_validate (programs : Guardrail.Programs) (h : c.validate = .ok ()) :
    ((∃ chain, Guardrail.Chain.ofConfig programs c.guardrails = .ok chain) ∧
      (∃ t, TimeoutSelector.ofConfig c.timeouts = .ok t) ∧
      (∃ s, Sanitizer.ofConfig c.sanitize = .ok s) ∧
      (∃ d, Diagnostics.ofConfig c.diagnostics = .ok d) ∧
      ((∃ pool, Admission.Pool.ofCapacity c.admissionCapacity = .ok pool) ↔
        c.admissionCapacity ≤ Admission.Pool.maxCapacity)) ∧
    ((∃ p, ofConfig programs c = .ok p) ↔ c.admissionCapacity ≤ Admission.Pool.maxCapacity) ∧
    (Admission.Pool.maxCapacity < c.admissionCapacity →
      ofConfig programs c = .error .tooManySlots) ∧
    ∀ p, ofConfig programs c = .ok p →
      p.pool.capacity = c.admissionCapacity ∧ 1 ≤ p.pool.capacity ∧
      (∀ phase, ∀ e ∈ p.guardrails.entries phase, e.timeout.isZero = false) ∧
      ∀ sql, (p.timeouts.select sql).isZero = false := by
  have hc : c.Valid := validate_eq_ok_iff.1 h
  have hpos : 0 < c.admissionCapacity := Nat.pos_of_ne_zero hc.capacity
  obtain ⟨d, hd, -⟩ := hc.timeout
  obtain ⟨chain, hchain⟩ : ∃ chain, Guardrail.Chain.ofConfig programs c.guardrails = .ok chain :=
    Guardrail.Chain.exists_ofConfig hc.before hc.after
  obtain ⟨t, ht⟩ := TimeoutSelector.exists_ofConfig (Option.isSome_of_eq_some hd)
    fun r hr => (hc.rules r hr).1
  obtain ⟨s, hs⟩ := Sanitizer.exists_ofConfig hc.sanitize
  obtain ⟨hints, hhints⟩ := Diagnostics.exists_ofConfig hc.diagnostics
  have hpool : (∃ pool, Admission.Pool.ofCapacity c.admissionCapacity = .ok pool) ↔
      c.admissionCapacity ≤ Admission.Pool.maxCapacity := by
    simp only [Admission.Pool.ofCapacity_eq_ok_iff]
    exact ⟨fun ⟨_, _, hmax, _⟩ => hmax, fun hmax => ⟨_, hpos, hmax, rfl⟩⟩
  refine ⟨⟨⟨chain, hchain⟩, ⟨t, ht⟩, ⟨s, hs⟩, ⟨hints, hhints⟩, hpool⟩, ?_, fun hmax => ?_,
    fun p hp => ?_⟩
  · rw [← hpool]
    constructor
    · intro ⟨p, hp⟩
      exact ⟨p.pool, (ofConfig_eq_ok_iff.1 hp).2.pool⟩
    · intro ⟨pool, hpool⟩
      exact ⟨⟨c.policy, chain, t, s, hints, pool, c.limits.maxResultBytes⟩,
        ofConfig_eq_ok_iff.2 ⟨h, rfl, hpool, hchain, ht, hs, hhints, rfl⟩⟩
  · have hlarge : Admission.Pool.ofCapacity c.admissionCapacity = .error .tooLarge := by
      rw [Admission.Pool.ofCapacity, if_neg hc.capacity, if_pos hmax]
    unfold ofConfig
    rw [h, hlarge]
    rfl
  · have hbuilt : p.BuiltFrom programs c := (ofConfig_eq_ok_iff.1 hp).2
    have hcap := Admission.Pool.capacity_of_ofCapacity hbuilt.pool
    exact ⟨hcap, hcap ▸ hpos, fun phase e he => hbuilt.timeout_isZero hc he,
      hbuilt.select_isZero hc⟩

/-- A configuration with a guardrail that has the time there is for all, and a rule on limits. -/
def guarded : Config :=
  { single with
    timeouts := ⟨some (.ofSecs 1), [⟨"SELECT", .ofSecs 3⟩]⟩
    guardrails := ⟨some (.ofSecs 2), [⟨none, ".*", "review", [], none⟩], []⟩ }

theorem validate_guarded : guarded.validate = .ok () := by
  decide +kernel

theorem starts_of_validate_guarded : ∃ p : Pipeline,
    ofConfig (fun _ _ _ => .notStarted "") guarded = .ok p ∧ p.pool.capacity = 1 ∧
      (∀ e ∈ p.guardrails.before, e.timeout.isZero = false) ∧
      (p.timeouts.select "SELECT 1").isZero = false := by
  obtain ⟨-, hstarts, -, hall⟩ :=
    starts_of_validate (fun _ _ _ => .notStarted "") validate_guarded
  obtain ⟨p, hp⟩ := hstarts.2 (by decide)
  obtain ⟨hcap, -, hguardrails, hselect⟩ := hall p hp
  exact ⟨p, hp, hcap, hguardrails .before, hselect _⟩

/-- A configuration with more slots than can be counted. -/
def crowded : Config := { single with limits := ⟨1048576, some 2305843009213693952⟩ }

theorem validate_crowded : crowded.validate = .ok () := by
  decide +kernel

/-- Validation lets pass what the pool cannot be made of. -/
theorem crowded_does_not_start : crowded.validate = .ok () ∧
    (∀ pool, Admission.Pool.ofCapacity crowded.admissionCapacity ≠ .ok pool) ∧
    ∀ p, ofConfig (fun _ _ _ => .notStarted "") crowded ≠ .ok p := by
  have hmax : ¬ crowded.admissionCapacity ≤ Admission.Pool.maxCapacity := by decide
  refine ⟨validate_crowded, fun pool h => hmax ?_, fun p h => hmax ?_⟩
  · exact (Admission.Pool.ofCapacity_eq_ok_iff.1 h).2.1
  · exact (Admission.Pool.ofCapacity_eq_ok_iff.1 (ofConfig_eq_ok_iff.1 h).2.pool).2.1

/-! ## Whether limits can be used -/

/-- The spans in a configuration that limit what a call does, each of which may be missing. -/
def spans (c : Config) : List (Option Duration) :=
  c.timeouts.default :: c.timeouts.rules.map (some ·.timeout) ++
    (c.guardrails.before ++ c.guardrails.after).map fun e =>
      e.timeout <|> c.guardrails.defaultTimeout

/-- The limits on time that a call may come across. -/
def limits (t : TimeoutSelector) (chain : Guardrail.Chain) : List Duration :=
  t.default :: t.rules.map (·.2) ++ (chain.before ++ chain.after).map (·.timeout)

variable {t : TimeoutSelector} {chain : Guardrail.Chain}

theorem limits_eq (ht : TimeoutSelector.ofConfig c.timeouts = .ok t)
    (hchain : Guardrail.Chain.ofConfig programs c.guardrails = .ok chain) :
    (limits t chain).map some = spans c := by
  obtain ⟨hd, hrules⟩ := TimeoutSelector.ofConfig_eq_ok_iff.1 ht
  obtain ⟨hbefore, hafter⟩ := Guardrail.Chain.ofConfig_eq_ok_iff.1 hchain
  have hruleSpans : t.rules.map (some ·.2) = c.timeouts.rules.map (some ·.timeout) := by
    refine map_eq_of_forItems (fun i r y h => ?_) hrules
    obtain ⟨p, -, h⟩ := bind_eq_ok_iff.1 h
    cases h
    rfl
  have hentries : ∀ {list es entries},
      forItems (Guardrail.Entry.ofConfig programs c.guardrails.defaultTimeout list) es =
          .ok entries →
        entries.map (some ·.timeout) =
          es.map fun e => e.timeout <|> c.guardrails.defaultTimeout := by
    intro list es entries h
    refine map_eq_of_forItems (fun i e y hy => ?_) h
    exact (Guardrail.Entry.ofConfig_eq_ok_iff.1 hy).2.1.symm
  unfold limits spans
  rw [hd, ← hruleSpans, c.guardrails.before.map_append, ← hentries hbefore, ← hentries hafter]
  simp [Function.comp_def]

theorem select_mem_limits (sql : String) : t.select sql ∈ limits t chain := by
  unfold TimeoutSelector.select limits
  cases hr : t.rules.find? fun r => r.1.isMatch sql with
  | none => exact List.mem_cons_self
  | some r =>
      refine List.mem_cons_of_mem _ (List.mem_append_left _ ?_)
      exact List.mem_map_of_mem (List.mem_of_find?_eq_some hr)

theorem isZero_of_mem_spans (hc : c.Valid) {d : Duration} (hd : some d ∈ spans c) :
    d.isZero = false := by
  unfold spans at hd
  rcases List.mem_append.1 hd with hd | hd
  · rcases List.mem_cons.1 hd with hd | hd
    · obtain ⟨d', hd', hzero⟩ := hc.timeout
      cases hd.trans hd'
      exact hzero
    · obtain ⟨r, hr, hrd⟩ := List.mem_map.1 hd
      cases hrd
      exact (hc.rules r hr).2
  · obtain ⟨e, he, hed⟩ := List.mem_map.1 hd
    have hvalid : e.Valid c.guardrails.defaultTimeout :=
      (List.mem_append.1 he).elim (hc.before e) (hc.after e)
    obtain ⟨d', hd', hzero⟩ := hvalid.timeout
    cases hed.symm.trans hd'
    exact hzero

/-- The largest limit that the server takes, in milliseconds. -/
def maxLimitMillis : Nat := 2147483647

theorem limitMillis_le_iff (d : Duration) : Postgres.limitMillis d ≤ maxLimitMillis ↔
    d.nanos < (maxLimitMillis + 1) * 1000000 := by
  unfold Postgres.limitMillis maxLimitMillis
  omega

theorem counted_iff (now : Instant) (d : Duration) :
    (Clock.after? now d).isSome ↔ now / 1000 + d.secs < Clock.seconds := by
  unfold Clock.after?
  split_ifs with h <;> simp [h]

/-- In a configuration that validation lets pass, every limit is there and is more than nothing. The
end of all of them can be counted from an instant on exactly if there are enough seconds left for
each span of the configuration. The transaction of a statement is opened with the milliseconds of its
limit, which are at least one; and the server takes them exactly if the limit is below 2147483648
milliseconds. -/
theorem limits_of_validate (programs : Guardrail.Programs) (h : c.validate = .ok ()) :
    ∃ t chain, TimeoutSelector.ofConfig c.timeouts = .ok t ∧
      Guardrail.Chain.ofConfig programs c.guardrails = .ok chain ∧
      (limits t chain).map some = spans c ∧ (∀ d ∈ limits t chain, d.isZero = false) ∧
      (∀ now, (∀ d ∈ limits t chain, (Clock.after? now d).isSome) ↔
        ∀ d, some d ∈ spans c → now / 1000 + d.secs < Clock.seconds) ∧
      ∀ sql, t.select sql ∈ limits t chain ∧ ∀ readOnly, ∃ (first : List String) (millis : Nat),
        Postgres.opening ⟨readOnly, t.select sql⟩ =
          first ++ ["set local statement_timeout = " ++ Text.decimal millis] ∧
        millis = max 1 ((t.select sql).nanos / 1000000) ∧
        (millis ≤ maxLimitMillis ↔ (t.select sql).nanos < (maxLimitMillis + 1) * 1000000) := by
  have hc : c.Valid := validate_eq_ok_iff.1 h
  obtain ⟨d, hd, -⟩ := hc.timeout
  obtain ⟨t, ht⟩ := TimeoutSelector.exists_ofConfig (Option.isSome_of_eq_some hd)
    fun r hr => (hc.rules r hr).1
  obtain ⟨chain, hchain⟩ : ∃ chain, Guardrail.Chain.ofConfig programs c.guardrails = .ok chain :=
    Guardrail.Chain.exists_ofConfig hc.before hc.after
  have hspans : (limits t chain).map some = spans c := limits_eq ht hchain
  have hmem : ∀ d, some d ∈ spans c ↔ d ∈ limits t chain := by
    intro d
    rw [← hspans, List.mem_map_of_injective fun _ _ => Option.some.inj]
  refine ⟨t, chain, ht, hchain, hspans, fun d hd => isZero_of_mem_spans hc ((hmem d).2 hd),
    fun now => ?_, fun sql => ⟨select_mem_limits sql, fun readOnly => ?_⟩⟩
  · simp only [hmem, counted_iff]
  · exact ⟨_, _, rfl, rfl, limitMillis_le_iff _⟩

/-- A limit for all, a rule and a guardrail: their ends can be counted from the beginning of the clock,
and the server takes the limit of any statement. -/
theorem limits_of_validate_guarded : ∃ (t : TimeoutSelector) (chain : Guardrail.Chain),
    TimeoutSelector.ofConfig guarded.timeouts = .ok t ∧
      (limits t chain).map some = [some (.ofSecs 1), some (.ofSecs 3), some (.ofSecs 2)] ∧
      ∀ d ∈ limits t chain, (Clock.after? 0 d).isSome := by
  obtain ⟨t, chain, ht, -, hspans, -, hcounted, -⟩ :=
    limits_of_validate (fun _ _ _ => .notStarted "") validate_guarded
  refine ⟨t, chain, ht, hspans, (hcounted 0).2 fun d hd => ?_⟩
  have hspan : d = .ofSecs 1 ∨ d = .ofSecs 3 ∨ d = .ofSecs 2 := by
    simpa [spans, guarded] using hd
  rcases hspan with rfl | rfl | rfl <;> decide

/-- A configuration with a limit of two to the 63rd seconds. -/
def endless : Config := { single with timeouts := ⟨some (.ofSecs 9223372036854775808), []⟩ }

/-- Validation lets pass a limit whose end can never be counted, so that a call breaks off as soon as
it comes to it, and which the server does not take either. -/
theorem endless_is_unusable : endless.validate = .ok () ∧
    ∀ t, TimeoutSelector.ofConfig endless.timeouts = .ok t → ∀ sql,
      (∀ now, Clock.after? now (t.select sql) = none) ∧
      maxLimitMillis < Postgres.limitMillis (t.select sql) := by
  refine ⟨by decide +kernel, fun t ht sql => ?_⟩
  obtain ⟨hd, hrules⟩ := TimeoutSelector.ofConfig_eq_ok_iff.1 ht
  have hselect : t.select sql = .ofSecs 9223372036854775808 := by
    rcases TimeoutSelector.select_eq ht sql with hd | ⟨r, hr, -⟩
    · exact (Option.some.inj hd).symm
    · cases hr
  rw [hselect]
  exact ⟨fun now => if_neg (not_lt.2 (Nat.le_add_left _ _)), by decide⟩

end Pipeline

end SqlGate
