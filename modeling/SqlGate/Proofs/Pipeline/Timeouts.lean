import SqlGate.Proofs.Pipeline.Deadlines
import SqlGate.Proofs.Work.Proper

/-!
# What a timeout tells

A call that runs out of time says after how long. It is the limit that was selected for it, and the
context that was over may have been bounded by it, by the deadline of the caller or, when a transaction
is committed, by that alone. So the limit has passed, or an earlier deadline of the caller has
(`Overdue`); the two are not told apart (`limit_not_reached`).

What an attempt ends with is found step by step (`Ends`): it fails with one of its parts, in the order
in which they come up. An operation runs out of time at the deadline of its context (`GivenUp`), and
a statement where one of its three operations that are waited for does (`TimesOut`).
-/

namespace SqlGate

/-! ## Waiting that is ended by its context -/

namespace Context

variable {c : Context} {now t : Instant} {due : Option Instant}

theorem await_eq_late_iff {why : Ending} :
    c.await none now due = some (t, some why) ↔
      c.status t = some why ∧
        (now = t ∨ c.status now = none ∧ c.endsAt = some t ∧ ∀ d, due = some d → t ≤ d) := by
  cases hs : c.status now with
  | some e =>
      have hawait : c.await none now due = some (now, some e) := by
        rw [await, hs]
        rfl
      rw [hawait]
      constructor
      · rintro ⟨⟩
        exact ⟨hs, .inl rfl⟩
      · rintro ⟨hwhy, rfl | ⟨⟨⟩, -⟩⟩
        rw [hs] at hwhy
        rw [Option.some.inj hwhy]
  | none =>
      rw [await_of_live hs]
      constructor
      · intro hrace
        have hlate := await_late ((await_of_live hs).trans hrace)
        unfold race at hrace
        cases he : c.endsAt with
        | none => cases hd : due <;> simp [he, hd] at hrace
        | some e =>
            rw [he] at hrace
            cases hd : due with
            | none =>
                rw [hd] at hrace
                obtain ⟨rfl, hwhy⟩ := Prod.mk.inj (Option.some.inj hrace)
                exact ⟨hwhy, .inr ⟨rfl, rfl, fun d' hd' => absurd hd'.symm (Option.some_ne_none d')⟩⟩
            | some d =>
                rw [hd] at hrace
                dsimp only at hrace
                split_ifs at hrace with hle
                · obtain ⟨rfl, hwhy⟩ := Prod.mk.inj (Option.some.inj hrace)
                  exact ⟨hwhy, .inr ⟨rfl, rfl, fun d' hd' => Option.some.inj hd' ▸ hle⟩⟩
                · cases hrace
      · rintro ⟨hwhy, rfl | ⟨-, hend, hdue⟩⟩
        · cases hs.symm.trans hwhy
        · rw [← await_of_live hs, await_of_le hs hend hdue, hwhy]

theorem status_eq_expired_iff :
    c.status t = some .expired ↔
      Clock.hasCome c.cancelledAt t = false ∧ ∃ d, c.deadline = some d ∧ d ≤ t := by
  unfold status
  cases hc : Clock.hasCome c.cancelledAt t with
  | true => simp
  | false =>
      cases hd : c.deadline with
      | none => simp [Clock.hasCome]
      | some d => by_cases hle : d ≤ t <;> simp [Clock.hasCome, hle]

theorem hasCome_of_le {x : Option Instant} (h : now ≤ t) (ht : Clock.hasCome x t = false) :
    Clock.hasCome x now = false := by
  rw [Clock.hasCome_eq_false_iff] at ht ⊢
  exact fun e he => h.trans_lt (ht e he)

/-- A deadline that comes before a limit is the caller's. -/
theorem deadline_of_within {limit : Option Instant} {d : Instant}
    (h : (c.within limit).deadline = some d) (hlimit : limit ≠ some d) : c.deadline = some d := by
  unfold within Clock.earlier at h
  cases hc : c.deadline with
  | none =>
      rw [hc] at h
      exact absurd h hlimit
  | some e =>
      rw [hc] at h
      cases limit with
      | none => exact h
      | some u =>
          obtain rfl := Option.some.inj h
          rcases min_choice e u with hmin | hmin
          · rw [hmin]
          · exact absurd (congrArg some hmin.symm) hlimit

end Context

namespace Pipeline

variable {p : Pipeline} {c : Context} {b : Backend} {op : Backend.Operation} {s t t' : Instant}
  {span d : Duration}

/-- An operation that comes up at an instant runs out of time at another one: the deadline of its
context comes before it is done, or has passed already, and the context is not cancelled by then. -/
structure GivenUp (c : Context) (b : Backend) (op : Backend.Operation) (t t' : Instant) : Prop where
  atDeadline : ∃ d, c.deadline = some d ∧ t' = max t d ∧
    ∀ n, (b.behaviour op).delay = some n → d ≤ t + n
  uncancelled : Clock.hasCome c.cancelledAt t' = false

theorem GivenUp.le (h : GivenUp c b op t t') : t ≤ t' := by
  obtain ⟨d, -, rfl, -⟩ := h.atDeadline
  exact le_max_left t d

theorem returned_late_iff {e : Context.Ending} :
    Returned c b op t (.late e) t' ↔
      c.await none t ((b.behaviour op).delay.map (t + ·)) = some (t', some e) :=
  ⟨fun h => by cases h with | late hw => exact hw, .late⟩

theorem returned_expired_iff : Returned c b op t (.late .expired) t' ↔ GivenUp c b op t t' := by
  rw [returned_late_iff, Context.await_eq_late_iff, Context.status_eq_expired_iff]
  constructor
  · rintro ⟨⟨hcancelled, d, hd, hle⟩, rfl | ⟨hs, hend, hdue⟩⟩
    · exact ⟨⟨d, hd, (max_eq_left hle).symm, fun n _ => hle.trans (Nat.le_add_right t n)⟩, hcancelled⟩
    · obtain rfl : t' = d := le_antisymm ((Clock.earlier_le hend).2 d hd) hle
      refine ⟨⟨t', hd, (max_eq_right (Context.lt_deadline hs hd).le).symm, fun n hn => ?_⟩, hcancelled⟩
      exact hdue (t + n) (by rw [hn]; rfl)
  · rintro ⟨⟨d, hd, rfl, hdelay⟩, hcancelled⟩
    refine ⟨⟨hcancelled, d, hd, le_max_right t d⟩, ?_⟩
    by_cases hle : d ≤ t
    · exact .inl (max_eq_left hle).symm
    · have hlt : t < d := not_le.1 hle
      rw [max_eq_right hlt.le] at hcancelled ⊢
      refine .inr ⟨?_, (Context.expires hd hcancelled).1, fun i hi => ?_⟩
      · have hlive := Context.hasCome_of_le hlt.le hcancelled
        unfold Context.status
        rw [hlive, hd]
        simp [Clock.hasCome, hle]
      · obtain ⟨n, hn, rfl⟩ := Option.map_eq_some_iff.1 hi
        exact hdelay n hn

end Pipeline

/-! ## What work ends with -/

namespace Work

variable {α β ε : Type} {c : Context} {b : Backend} {t t' : Instant}

/-- Work that begins at an instant ends with a value, and when. -/
def Ends (c : Context) (b : Backend) (w : Work α) (t : Instant) (v : α) (t' : Instant) : Prop :=
  (run c b none w t).2 = .ended t' (some v)

theorem ends_pure {a v : α} : Ends c b (pure a) t v t' ↔ a = v ∧ t = t' := by
  change Progress.ended t (some a) = .ended t' (some v) ↔ _
  rw [Progress.ended.injEq, Option.some.injEq, and_comm]

theorem Ends.unique {w : Work α} {v v' : α} {s : Instant} (h : Ends c b w t v t')
    (h' : Ends c b w t v' s) : v = v' ∧ t' = s := by
  obtain ⟨rfl, hv⟩ := Progress.ended.inj (h.symm.trans h')
  exact ⟨Option.some.inj hv, rfl⟩

theorem ends_bind {w : Work α} {f : α → Work β} {v : β} :
    Ends c b (w >>= f) t v t' ↔ ∃ a s, Ends c b w t a s ∧ Ends c b (f a) s v t' := by
  unfold Ends
  rw [run_bind]
  match hw : run c b none w t with
  | (seen, .waiting p) => simp [andThen]
  | (seen, .ended s none) => simp [andThen]
  | (seen, .ended s (some a)) =>
      constructor
      · exact fun h => ⟨a, s, rfl, h⟩
      · rintro ⟨a', s', hends, h⟩
        obtain ⟨rfl, ha⟩ := Progress.ended.inj hends
        obtain rfl := Option.some.inj ha
        exact h

/-- An attempt goes on from what the one before it ended with. -/
theorem ends_attempt_bind {x : ExceptT ε Work α} {f : α → ExceptT ε Work β} {v : Except ε β} :
    Ends c b (x >>= f).run t v t' ↔
      ∃ d s, Ends c b x.run t d s ∧ Ends c b (onward f d) s v t' := by
  have hbind : Ends c b (x >>= f).run t v t' ↔ Ends c b (x.run >>= onward f) t v t' := by
    unfold Ends
    rw [run_attempt_bind, run_bind]
  rw [hbind, ends_bind]

/-- An attempt fails with its first part, or with what comes after that. -/
theorem ends_attempt_bind_error {x : ExceptT ε Work α} {f : α → ExceptT ε Work β} {why : ε} :
    Ends c b (x >>= f).run t (.error why) t' ↔
      Ends c b x.run t (.error why) t' ∨
        ∃ a s, Ends c b x.run t (.ok a) s ∧ Ends c b (f a).run s (.error why) t' := by
  rw [ends_attempt_bind]
  constructor
  · rintro ⟨v, s, hx, hf⟩
    cases v with
    | ok a => exact .inr ⟨a, s, hx, hf⟩
    | error e =>
        obtain ⟨hv, rfl⟩ := ends_pure.1 hf
        obtain rfl := Except.error.inj hv
        exact .inl hx
  · rintro (hx | ⟨a, s, hx, hf⟩)
    · exact ⟨.error why, t', hx, ends_pure.2 ⟨rfl, rfl⟩⟩
    · exact ⟨.ok a, s, hx, hf⟩

/-- An attempt succeeds if both of its parts do. -/
theorem ends_attempt_bind_ok {x : ExceptT ε Work α} {f : α → ExceptT ε Work β} {v : β} :
    Ends c b (x >>= f).run t (.ok v) t' ↔
      ∃ a s, Ends c b x.run t (.ok a) s ∧ Ends c b (f a).run s (.ok v) t' := by
  rw [ends_attempt_bind]
  constructor
  · rintro ⟨d, s, hx, hf⟩
    cases d with
    | ok a => exact ⟨a, s, hx, hf⟩
    | error e => cases (ends_pure.1 hf).1
  · rintro ⟨a, s, hx, hf⟩
    exact ⟨.ok a, s, hx, hf⟩

theorem ends_lift_bind {w : Work α} {f : α → ExceptT ε Work β} {v : Except ε β} :
    Ends c b (ExceptT.lift w >>= f).run t v t' ↔
      ∃ a s, Ends c b w t a s ∧ Ends c b (f a).run s v t' := by
  have hlift : (ExceptT.lift w >>= f).run = w >>= fun a => (f a).run := by
    rw [ExceptT.run_bind, ExceptT.run_lift]
    simp
  rw [hlift, ends_bind]

/-- No work ends before it begins. -/
theorem Ends.le {w : Work α} {v : α} (h : Ends c b w t v t') : t ≤ t' := by
  unfold Ends at h
  induction w generalizing t with
  | done a => exact (Progress.ended.inj h).1.le
  | rest => cases h
  | deadline span inside next ih =>
      cases hl : Clock.after? t span with
      | none =>
          rw [run_deadline_none c b none inside next hl] at h
          cases h
      | some u =>
          rw [run_deadline_some c b none inside next hl] at h
          exact ih u h
  | perform op limit next ih =>
      rcases run_perform_cases c b none t op limit next with
        ⟨e, -, hr⟩ | ⟨-, ⟨reply, s, hs, -, hr⟩ | ⟨-, hr⟩⟩
      · rw [hr] at h
        exact ih _ h
      · rw [hr] at h
        exact hs.le.trans (ih reply h)
      · rw [hr] at h
        cases h
  | consult g payload limit next ih =>
      rcases run_consult_cases c b none t g payload limit next with ⟨d, s, hs, hr⟩ | ⟨_, _, -, hr⟩
      · rw [hr] at h
        exact (hs (Clock.isWithin_none t)).le.trans (ih d h)
      · rw [hr] at h
        cases h

end Work

namespace Pipeline

open Work

variable {p : Pipeline} {c : Context} {b : Backend} {op : Backend.Operation} {s t t' : Instant}
  {span d : Duration}

theorem ends_deadline {v : Except Fault Instant} :
    Ends c b (deadline span).run t v t' ↔
      ∃ u, Clock.after? t span = some u ∧ v = .ok u ∧ t = t' := by
  change (run c b none (.deadline span false fun u => .done (.ok u)) t).2 = .ended t' (some v) ↔ _
  cases hl : Clock.after? t span with
  | none =>
      rw [run_deadline_none c b none false _ hl]
      simp
  | some u =>
      rw [run_deadline_some c b none false _ hl, run, Progress.ended.injEq, Option.some.injEq]
      simp [and_comm, eq_comm]

theorem Returned.ends {limit : Option Instant} {reply : Reply op.Answer}
    (h : Returned (c.within limit) b op t reply t') :
    Ends c b (perform span limit op).run t (ofReply span reply) t' := by
  cases hs : (c.within limit).status t with
  | none => exact congrArg Prod.snd (run_perform_live span hs h)
  | some e =>
      have hover : (c.within limit).await none t ((b.behaviour op).delay.map (t + ·)) =
          some (t, some e) := Context.await_eq_late_iff.2 ⟨hs, .inl rfl⟩
      cases h with
      | answered hw => cases hover.symm.trans hw
      | late hw =>
          obtain ⟨rfl, he⟩ := Prod.mk.inj (Option.some.inj (hover.symm.trans hw))
          obtain rfl := Option.some.inj he
          have hrun := run_perform_over c b none
            (fun reply : Reply op.Answer => .done (ofReply span reply)) hs
          exact congrArg Prod.snd hrun

/-- An operation on the database ends as its reply says. -/
theorem ends_perform {limit : Option Instant} {v : Except Fault op.Answer} :
    Ends c b (perform span limit op).run t v t' ↔
      ∃ reply, Returned (c.within limit) b op t reply t' ∧ ofReply span reply = v := by
  constructor
  · intro h
    cases hw : (c.within limit).await none t ((b.behaviour op).delay.map (t + ·)) with
    | none =>
        have hs : (c.within limit).status t = none :=
          ((c.within limit).status_eq_none_iff t).2
            (by simp [(Context.await_eq_none_iff.1 hw).1])
        have hrun := run_perform_waiting c b none
          (fun reply : Reply op.Answer => .done (ofReply span reply)) hs hw
        cases h.symm.trans (congrArg Prod.snd hrun)
    | some outcome =>
        obtain ⟨s, o⟩ := outcome
        obtain ⟨reply, hreply⟩ : ∃ reply, Returned (c.within limit) b op t reply s := by
          cases o with
          | none => exact ⟨_, .answered hw⟩
          | some e => exact ⟨_, .late hw⟩
        obtain ⟨rfl, rfl⟩ := hreply.ends.unique h
        exact ⟨reply, hreply, rfl⟩
  · rintro ⟨reply, h, rfl⟩
    exact h.ends

/-- An operation fails for lack of time where it is given up. -/
theorem ends_perform_timeout {limit : Option Instant} :
    Ends c b (perform span limit op).run t (.error (.timeout d)) t' ↔
      d = span ∧ GivenUp (c.within limit) b op t t' := by
  rw [ends_perform, ← returned_expired_iff]
  constructor
  · rintro ⟨reply, h, hr⟩
    match reply with
    | .answered (.ok a) => cases hr
    | .answered (.error why) => cases hr
    | .late .cancelled => cases hr
    | .late .expired => exact ⟨(Fault.timeout.inj (Except.error.inj hr)).symm, h⟩
  · rintro ⟨rfl, h⟩
    exact ⟨_, h, rfl⟩

/-- Guardrails fail as guardrails. -/
theorem not_ends_consult_timeout {phase : Guardrail.Phase} {text : String} :
    ¬ Ends c b (p.consult phase text).run t (.error (.timeout d)) t' := by
  intro h
  obtain ⟨v, s, -, hmap⟩ := ends_bind.1 h
  obtain ⟨hv, -⟩ := ends_pure.1 hmap
  cases v <;> cases hv

theorem ends_inTransaction_timeout {until' : Instant} {sql : String} :
    Ends c b (p.inTransaction span until' sql).run t (.error (.timeout d)) t' ↔
      d = span ∧ GivenUp (c.within (some until')) b (.execute sql) t t' := by
  unfold inTransaction
  rw [ends_attempt_bind_error, ends_perform_timeout, or_iff_left]
  rintro ⟨x, s, -, h⟩
  dsimp only at h
  split_ifs at h
  · cases (ends_pure.1 h).1
  · rcases ends_attempt_bind_error.1 h with hconsult | ⟨text, s', -, hread⟩
    · exact not_ends_consult_timeout hconsult
    · split at hread
      · cases (ends_pure.1 hread).1
      · cases (ends_pure.1 hread).1

/-- A transaction that is rolled back fails as what was done in it; only its commit can run out of
time beside that. -/
theorem ends_close_timeout {v : Except Fault QueryResult} :
    Ends c b (p.close span v).run t (.error (.timeout d)) t' ↔
      v = .error (.timeout d) ∧ Ends c b rollback t () t' ∨
        (∃ r, v = .ok r) ∧ d = span ∧ GivenUp c b .commit t t' := by
  cases v with
  | error why =>
      unfold close
      rw [ends_lift_bind]
      constructor
      · rintro ⟨_, s, hrollback, hthrow⟩
        obtain ⟨hwhy, rfl⟩ := ends_pure.1 hthrow
        exact .inl ⟨hwhy, hrollback⟩
      · rintro (⟨hwhy, hrollback⟩ | ⟨⟨r, hr⟩, -⟩)
        · exact ⟨(), t', hrollback, ends_pure.2 ⟨hwhy, rfl⟩⟩
        · cases hr
  | ok r =>
      have hcommit : Ends c b (perform span none .commit).run t (.error (.timeout d)) t' ↔
          d = span ∧ GivenUp c b .commit t t' := by
        rw [ends_perform_timeout, Context.within_none]
      refine ends_attempt_bind_error.trans ?_
      constructor
      · rintro (h | ⟨_, s, -, hcap⟩)
        · exact .inr ⟨⟨r, rfl⟩, hcommit.1 h⟩
        · cases (ends_pure.1 hcap).1
      · rintro (⟨hr, -⟩ | ⟨-, h⟩)
        · cases hr
        · exact .inl (hcommit.2 h)

/-! ## Statements -/

/-- How the time for a text runs out that was selected at an instant, and when that is told: its
transaction is not opened in time, or it is not executed in time, which is told after the rollback,
or what was done is not committed by the deadline of the caller. -/
inductive TimesOut (p : Pipeline) (c : Context) (b : Backend) (text : String) (s until' : Instant) :
    Instant → Prop where
  | opening {t : Instant} (hb : GivenUp (c.within (some until')) b (.begin (p.options text)) s t) :
    TimesOut p c b text s until' t
  | executing {t₁ t₂ t : Instant} (hb : Ends c b (p.enter until' text).run s (.ok ()) t₁)
    (hx : GivenUp (c.within (some until')) b (.execute text) t₁ t₂)
    (hr : Ends c b rollback t₂ () t) :
    TimesOut p c b text s until' t
  | committing {t₁ t₂ t : Instant} {r : QueryResult}
    (hb : Ends c b (p.enter until' text).run s (.ok ()) t₁)
    (hx : Ends c b (p.inTransaction (p.timeouts.select text) until' text).run t₁ (.ok r) t₂)
    (hc : GivenUp c b .commit t₂ t) :
    TimesOut p c b text s until' t

theorem ends_transact_timeout {text : String} :
    Ends c b (p.transact text).run s (.error (.timeout d)) t ↔
      d = p.timeouts.select text ∧
        ∃ until', Clock.after? s d = some until' ∧ p.TimesOut c b text s until' t := by
  refine ends_attempt_bind_error.trans ?_
  constructor
  · rintro (hd | ⟨until', s', hd, h⟩)
    · obtain ⟨u, -, hu, -⟩ := ends_deadline.1 hd
      cases hu
    · obtain ⟨u, hl, hu, rfl⟩ := ends_deadline.1 hd
      obtain rfl := Except.ok.inj hu
      rcases ends_attempt_bind_error.1 h with hb | ⟨_, t₁, hb, h⟩
      · obtain ⟨rfl, hbegin⟩ := ends_perform_timeout.1 hb
        exact ⟨rfl, until', hl, .opening hbegin⟩
      · obtain ⟨v, t₂, hx, h⟩ := ends_lift_bind.1 h
        rcases ends_close_timeout.1 h with ⟨rfl, hr⟩ | ⟨⟨r, rfl⟩, rfl, hc⟩
        · obtain ⟨rfl, hexecute⟩ := ends_inTransaction_timeout.1 hx
          exact ⟨rfl, until', hl, .executing hb hexecute hr⟩
        · exact ⟨rfl, until', hl, .committing hb hx hc⟩
  · rintro ⟨rfl, until', hl, h⟩
    refine .inr ⟨until', s, ends_deadline.2 ⟨until', hl, rfl, rfl⟩, ends_attempt_bind_error.2 ?_⟩
    cases h with
    | opening hb => exact .inl (ends_perform_timeout.2 ⟨rfl, hb⟩)
    | executing hb hx hr =>
        exact .inr ⟨(), _, hb, ends_lift_bind.2 ⟨_, _, ends_inTransaction_timeout.2 ⟨rfl, hx⟩,
          ends_close_timeout.2 (.inl ⟨rfl, hr⟩)⟩⟩
    | committing hb hx hc =>
        exact .inr ⟨(), _, hb, ends_lift_bind.2 ⟨_, _, hx,
          ends_close_timeout.2 (.inr ⟨⟨_, rfl⟩, rfl, hc⟩)⟩⟩

theorem ends_statement_timeout {sql : String} :
    Ends c b (p.statement sql).run t (.error (.timeout d)) t' ↔
      ∃ text s until', Ends c b (p.consult .before sql).run t (.ok text) s ∧
        p.policy.check text = .ok () ∧ d = p.timeouts.select text ∧
        Clock.after? s d = some until' ∧ p.TimesOut c b text s until' t' := by
  refine ends_attempt_bind_error.trans ?_
  constructor
  · rintro (hg | ⟨text, s, hg, h⟩)
    · exact absurd hg not_ends_consult_timeout
    · cases hp : p.policy.check text with
      | error why =>
          rw [hp] at h
          cases (ends_pure.1 h).1
      | ok u =>
          rw [hp] at h
          obtain ⟨hd, until', hl, hout⟩ := ends_transact_timeout.1 h
          exact ⟨text, s, until', hg, hp, hd, hl, hout⟩
  · rintro ⟨text, s, until', hg, hp, hd, hl, hout⟩
    refine .inr ⟨text, s, hg, ?_⟩
    rw [hp]
    exact ends_transact_timeout.2 ⟨hd, until', hl, hout⟩

theorem ends_catalog_timeout :
    Ends c b (p.catalog op).run t (.error (.timeout d)) t' ↔
      d = p.timeouts.default ∧ ∃ until', Clock.after? t d = some until' ∧
        GivenUp (c.within (some until')) b op t t' := by
  refine ends_attempt_bind_error.trans ?_
  constructor
  · rintro (hd | ⟨until', s, hd, h⟩)
    · obtain ⟨u, -, hu, -⟩ := ends_deadline.1 hd
      cases hu
    · obtain ⟨u, hl, hu, rfl⟩ := ends_deadline.1 hd
      obtain rfl := Except.ok.inj hu
      obtain ⟨rfl, hop⟩ := ends_perform_timeout.1 h
      exact ⟨rfl, until', hl, hop⟩
  · rintro ⟨rfl, until', hl, h⟩
    exact .inr ⟨until', t, ends_deadline.2 ⟨until', hl, rfl, rfl⟩, ends_perform_timeout.2 ⟨rfl, h⟩⟩

/-! ## What has passed by then -/

/-- By an instant, a time that began at another one has passed, or a deadline of the caller that is
before its end. -/
def Overdue (c : Context) (d : Duration) (s t : Instant) : Prop :=
  d.nanos ≤ (t - s) * 1000000 ∨
    ∃ e, c.deadline = some e ∧ e ≤ t ∧ e < s + Clock.ceilMillis d

theorem GivenUp.overdue {limit : Option Instant} {until' : Instant}
    (h : GivenUp (c.within limit) b op t t') (hl : Clock.after? s d = some until')
    (hlimit : ∀ u, limit = some u → u = until') : Overdue c d s t' := by
  obtain ⟨-, rfl⟩ := Clock.after?_eq_some_iff.1 hl
  obtain ⟨e, he, rfl, -⟩ := h.atDeadline
  by_cases hle : s + Clock.ceilMillis d ≤ max t e
  · refine .inl ((Clock.nanos_le_ceilMillis d).trans (Nat.mul_le_mul_right _ ?_))
    exact Nat.le_sub_of_add_le' hle
  · -- The limit has not come, so the deadline that has is not the limit.
    have hlt : e < s + Clock.ceilMillis d := (le_max_right t e).trans_lt (not_le.1 hle)
    exact .inr ⟨e, Context.deadline_of_within he fun hu => (hlt.ne (hlimit e hu)),
      le_max_right t e, hlt⟩

theorem Overdue.mono (h : Overdue c d s t) (hle : t ≤ t') : Overdue c d s t' := by
  rcases h with h | ⟨e, he, het, hlt⟩
  · exact .inl (h.trans (Nat.mul_le_mul_right _ (Nat.sub_le_sub_right hle s)))
  · exact .inr ⟨e, he, het.trans hle, hlt⟩

theorem TimesOut.overdue {text : String} {until' : Instant} (h : p.TimesOut c b text s until' t)
    (hl : Clock.after? s d = some until') : Overdue c d s t := by
  cases h with
  | opening hb => exact hb.overdue hl fun u hu => (Option.some.inj hu).symm
  | executing hb hx hr => exact (hx.overdue hl fun u hu => (Option.some.inj hu).symm).mono hr.le
  | committing hb hx hc => exact (c.within_none ▸ hc).overdue hl nofun

theorem TimesOut.le {text : String} {until' : Instant} (h : p.TimesOut c b text s until' t) :
    s ≤ t := by
  cases h with
  | opening hb => exact hb.le
  | executing hb hx hr => exact hb.le.trans (hx.le.trans hr.le)
  | committing hb hx hc => exact hb.le.trans (hx.le.trans hc.le)

/-- A call says that a time has passed just if it ran out of it, and it is the time that was
selected for the call. By then it has passed since, or an earlier deadline of the caller has. -/
theorem timeout_told_iff (p : Pipeline) (c : Context) (b : Backend) :
    (∀ sql start d t, Ends c b (p.statement sql).run start (.error (.timeout d)) t ↔
      ∃ text s until', Ends c b (p.consult .before sql).run start (.ok text) s ∧
        p.policy.check text = .ok () ∧ d = p.timeouts.select text ∧
        Clock.after? s d = some until' ∧ p.TimesOut c b text s until' t) ∧
    (∀ op start d t, Ends c b (p.catalog op).run start (.error (.timeout d)) t ↔
      d = p.timeouts.default ∧ ∃ until', Clock.after? start d = some until' ∧
        GivenUp (c.within (some until')) b op start t) ∧
    (∀ text s d until' t, Clock.after? s d = some until' → p.TimesOut c b text s until' t →
      s ≤ t ∧ Overdue c d s t) ∧
    ∀ op start d until' t, Clock.after? start d = some until' →
      GivenUp (c.within (some until')) b op start t → start ≤ t ∧ Overdue c d start t :=
  ⟨fun _ _ _ _ => ends_statement_timeout, fun _ _ _ _ => ends_catalog_timeout,
    fun _ _ _ _ _ hl h => ⟨h.le, h.overdue hl⟩,
    fun _ _ _ _ _ hl h => ⟨h.le, h.overdue hl fun _ hu => (Option.some.inj hu).symm⟩⟩

/-- The tables that a hanging database is asked for when the caller has five milliseconds left. -/
theorem givenUp_stuck :
    GivenUp (Context.within ⟨some 5, none⟩ (some 1000)) stuck (.listTables none) 0 5 where
  atDeadline := ⟨5, rfl, rfl, nofun⟩
  uncancelled := rfl

/-- A statement that hangs, and then its rollback, which the caller waits for until its deadline; and
tables for which the caller does not wait as long as their limit. -/
theorem timeout_told_iff_stuck :
    Ends ⟨some 1500, none⟩ stuck (alone.statement "SELECT 1").run 0
      (.error (.timeout (.ofSecs 1))) 1500 ∧
    Overdue ⟨some 1500, none⟩ (.ofSecs 1) 0 1500 ∧
    Ends ⟨some 5, none⟩ stuck (alone.catalog (.listTables none)).run 0
      (.error (.timeout (.ofSecs 1))) 5 ∧
    Overdue ⟨some 5, none⟩ (.ofSecs 1) 0 5 := by
  obtain ⟨hstatement, -, hoverdue, -⟩ := timeout_told_iff alone ⟨some 1500, none⟩ stuck
  obtain ⟨-, hcatalog, -, hgivenUp⟩ := timeout_told_iff alone ⟨some 5, none⟩ stuck
  have hexecute : GivenUp (Context.within ⟨some 1500, none⟩ (some 1000)) stuck (.execute "SELECT 1")
      0 1000 := ⟨⟨1000, rfl, rfl, nofun⟩, rfl⟩
  have hout : alone.TimesOut ⟨some 1500, none⟩ stuck "SELECT 1" 0 1000 1500 :=
    .executing rfl hexecute rfl
  exact ⟨(hstatement ..).2 ⟨"SELECT 1", 0, 1000, rfl, check_alone, rfl, rfl, hout⟩,
    (hoverdue _ _ _ _ _ rfl hout).2,
    (hcatalog ..).2 ⟨rfl, 1000, rfl, givenUp_stuck⟩,
    (hgivenUp _ _ _ _ _ rfl givenUp_stuck).2⟩

/-- The tables that a caller waits for as long as five milliseconds are said to have taken the second
that there is for them. -/
theorem limit_not_reached :
    ofConfig (fun _ _ _ => .notStarted "") single = .ok alone ∧
    ¬ ∀ (c : Context) (b : Backend) (op : Backend.Operation) (start : Instant) (d : Duration)
      (t : Instant), Ends c b (alone.catalog op).run start (.error (.timeout d)) t →
        d.nanos ≤ (t - start) * 1000000 := by
  refine ⟨ofConfig_single, fun h => ?_⟩
  have hends : Ends ⟨some 5, none⟩ stuck (alone.catalog (.listTables none)).run 0
      (.error (.timeout (.ofSecs 1))) 5 :=
    ends_catalog_timeout.2 ⟨rfl, 1000, rfl, givenUp_stuck⟩
  exact absurd (h _ _ _ _ _ _ hends) (by decide)

end Pipeline

end SqlGate
