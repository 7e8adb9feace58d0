import SqlGate.Proofs.Work.Proper

/-!
# Work with limits

Work has limits if it waits no longer than to an instant for whatever it waits for, but for the end
of a transaction, for which it waits as long as its context lasts (`Limited`). Wherever such work
waits, a timer is set, or it waits for the end of a transaction (`Pending.Limited`). So it waits for
ever only in a context that never ends, at a database that never ends the transaction, and then it
does (`Limited.waitsByEnding`).
-/

namespace SqlGate

namespace Work

variable {α β ε : Type}

/-! ## Limits -/

/-- All is waited for until an instant at most, but the end of a transaction. -/
def Limited : Work α → Prop
  | .done _ => True
  | .deadline _ _ next => ∀ t, (next t).Limited
  | .perform op limit next => limit.isNone = op.endsTransaction ∧ ∀ r, (next r).Limited
  | .consult _ _ _ next => ∀ d, (next d).Limited
  | .rest => False

theorem limited_bind {w : Work α} {f : α → Work β} (hw : w.Limited) (hf : ∀ a, (f a).Limited) :
    (w >>= f).Limited := by
  induction w with
  | done a => exact hf a
  | rest => exact hw
  | deadline span inside next ih => exact fun t => ih t (hw t)
  | perform op limit next ih => exact ⟨hw.1, fun r => ih r (hw.2 r)⟩
  | consult g payload limit next ih => exact fun d => ih d (hw d)

theorem limited_attempt_bind {x : ExceptT ε Work α} {f : α → ExceptT ε Work β}
    (hx : x.run.Limited) (hf : ∀ a, (f a).run.Limited) : (x >>= f).run.Limited := by
  rw [ExceptT.run_bind]
  refine limited_bind hx fun d => ?_
  cases d with
  | ok a => exact hf a
  | error why => trivial

theorem Limited.restless {w : Work α} (hw : w.Limited) : w.Restless := by
  induction w with
  | done a => trivial
  | rest => exact hw
  | deadline span inside next ih => exact fun t => ih t (hw t)
  | perform op limit next ih => exact fun r => ih r (hw.2 r)
  | consult g payload limit next ih => exact fun d => ih d (hw d)

/-! ## Timers -/

/-- The instant at which work gives up what it waits for, if a timer is set. -/
def Pending.timer (c : Context) : Pending α → Option Instant
  | .busy limit _ _ _ => (c.within limit).deadline
  | .resting => none

/-- Work waits for an operation that was begun at an instant. -/
def Pending.Awaits (b : Backend) (op : Backend.Operation) (time : Instant) (p : Pending α) : Prop :=
  ∃ (limit : Option Instant) (next : Reply op.Answer → Work α),
    p = .busy limit ((b.behaviour op).delay.map (time + ·))
      (next (.answered (b.behaviour op).result)) fun e => next (.late e)

/-- Work waits until an instant at most, or for the end of a transaction, and goes on with limits. -/
inductive Pending.Limited (b : Backend) : Pending α → Prop where
  | timed {limit : Instant} {due : Option Instant} {finished : Work α}
    {givenUp : Context.Ending → Work α} (hfinished : finished.Limited)
    (hgivenUp : ∀ e, (givenUp e).Limited) : Limited b (.busy (some limit) due finished givenUp)
  | ending {op : Backend.Operation} {time : Instant} {next : Reply op.Answer → Work α}
    (hop : op.endsTransaction = true) (hnext : ∀ r, (next r).Limited) :
    Limited b (.busy none ((b.behaviour op).delay.map (time + ·))
      (next (.answered (b.behaviour op).result)) fun e => next (.late e))

variable {c : Context} {b : Backend} {horizon : Option Instant} {t : Instant} {w : Work α}
  {p p' : Pending α}

/-- Where work with limits waits, a timer is set, or it waits for the end of a transaction. -/
theorem Pending.Limited.timer_isSome_or (h : p.Limited b) (c : Context) :
    (p.timer c).isSome = true ∨
      ∃ op time, op.endsTransaction = true ∧ p.Awaits b op time := by
  cases h with
  | timed hfinished hgivenUp =>
      left
      cases hd : c.deadline <;> simp [Pending.timer, Context.within, Clock.earlier, hd]
  | @ending op time next hop hnext => exact .inr ⟨op, time, hop, none, next, rfl⟩

theorem limited_busy {op : Backend.Operation} {limit : Option Instant}
    {next : Reply op.Answer → Work α} (hlimit : limit.isNone = op.endsTransaction)
    (hnext : ∀ r, (next r).Limited) (time : Instant) :
    (Pending.busy limit ((b.behaviour op).delay.map (time + ·))
      (next (.answered (b.behaviour op).result)) fun e => next (.late e)).Limited b := by
  cases limit with
  | none => exact .ending hlimit.symm hnext
  | some limit => exact .timed (hnext _) fun e => hnext _

/-- Nothing will ever end the wait. -/
def Pending.IsEndless (c : Context) : Pending α → Prop
  | .busy limit due _ _ => (c.within limit).endsAt = none ∧ due = none
  | .resting => True

/-- Work with limits keeps them wherever it waits. Without a horizon it waits only for what never
comes. -/
theorem Limited.of_run (hw : w.Limited) (h : (run c b horizon w t).2 = .waiting p) :
    p.Limited b ∧ (horizon = none → p.IsEndless c) := by
  induction w generalizing t with
  | done a => cases h
  | rest => exact hw.elim
  | deadline span inside next ih =>
      cases hl : Clock.after? t span with
      | none =>
          rw [run_deadline_none c b _ inside next hl] at h
          cases h
      | some t' =>
          rw [run_deadline_some c b _ inside next hl] at h
          exact ih t' (hw t') h
  | perform op limit next ih =>
      rcases run_perform_cases c b horizon t op limit next with
        ⟨e, -, hr⟩ | ⟨-, ⟨reply, t', -, -, hr⟩ | ⟨hwait, hr⟩⟩
      · rw [hr] at h
        exact ih _ (hw.2 _) h
      · rw [hr] at h
        exact ih reply (hw.2 reply) h
      · rw [hr] at h
        obtain rfl := Progress.waiting.inj h
        refine ⟨limited_busy hw.1 hw.2 t, ?_⟩
        rintro rfl
        exact Context.await_eq_none_iff.1 hwait
  | consult g payload limit next ih =>
      rcases run_consult_cases c b horizon t g payload limit next with
        ⟨decision, t', -, hr⟩ | ⟨due, decision, hwait, hr⟩
      · rw [hr] at h
        exact ih decision (hw decision) h
      · rw [hr] at h
        obtain rfl := Progress.waiting.inj h
        refine ⟨.timed (hw decision) fun e => hw _, ?_⟩
        rintro rfl
        exact Context.await_eq_none_iff.1 hwait

/-- What waits goes on with its limits. -/
theorem Pending.Limited.of_resume (hp : p.Limited b)
    (h : (p.resume c b horizon t).2 = .waiting p') :
    p'.Limited b ∧ (horizon = none → p'.IsEndless c) := by
  have hbusy : ∀ {limit due finished givenUp}, p = .busy limit due finished givenUp →
      finished.Limited → (∀ e, (givenUp e).Limited) →
      p'.Limited b ∧ (horizon = none → p'.IsEndless c) := by
    rintro limit due finished givenUp rfl hfinished hgivenUp
    rw [Pending.resume] at h
    split at h
    · exact hfinished.of_run h
    · exact (hgivenUp _).of_run h
    · rename_i hwait
      obtain rfl := Progress.waiting.inj h
      refine ⟨hp, ?_⟩
      rintro rfl
      exact Context.await_eq_none_iff.1 hwait
  cases hp with
  | timed hfinished hgivenUp => exact hbusy rfl hfinished hgivenUp
  | ending hop hnext => exact hbusy rfl (hnext _) fun e => hnext _

/-! ## Waiting for ever -/

/-- Work with limits waits without end only in a context that never ends, for the end of a
transaction that never comes. -/
theorem Pending.Limited.exists_of_endless (hp : p.Limited b) (h : p.IsEndless c) :
    c.endsAt = none ∧ ∃ op time, op.endsTransaction = true ∧ (b.behaviour op).delay = none ∧
      p.Awaits b op time := by
  cases hp with
  | timed hfinished hgivenUp => cases (Context.endsAt_within_eq_none_iff.1 h.1).2
  | @ending op time next hop hnext =>
      rw [Pending.IsEndless, Context.within_none] at h
      exact ⟨h.1, op, time, hop, Option.map_eq_none_iff.1 h.2, none, next, rfl⟩

/-- The end of a transaction was asked for, and never comes. -/
def Event.IsUnending (b : Backend) : Event → Prop
  | .asked op => op.endsTransaction = true ∧ (b.behaviour op).delay = none
  | _ => False

/-- In a context that never ends, an operation that is answered was none that ends a transaction and
never comes. -/
theorem not_unending_of_await {op : Backend.Operation} {limit : Option Instant}
    (hlimit : limit.isNone = op.endsTransaction)
    (h : ((c.within limit).await none t ((b.behaviour op).delay.map (t + ·))).isSome = true)
    (hc : c.endsAt = none) : ¬ (Event.asked op).IsUnending b := by
  rintro ⟨hop, hdelay⟩
  obtain rfl : limit = none := Option.isNone_iff_eq_none.1 (hlimit.trans hop)
  rw [Context.within_none, hdelay] at h
  exact Option.isSome_iff_ne_none.1 h (Context.await_eq_none_iff.2 ⟨hc, rfl⟩)

theorem not_unending_of_mem_dropIf {inside : Bool} {x : Entry} (hx : x ∈ dropIf inside t) :
    ¬ x.event.IsUnending b := by
  obtain ⟨-, rfl⟩ := mem_dropIf.1 hx
  exact id

/-- A run waits for ever exactly if its context never ends and the end of a transaction was asked for
in it that never comes. -/
def WaitsByEnding (c : Context) (b : Backend) (r : List Entry × Progress α) : Prop :=
  (∃ p, r.2 = .waiting p) ↔ c.endsAt = none ∧ ∃ x ∈ r.1, x.event.IsUnending b

theorem waitsByEnding_ended {entries : List Entry} (h : ∀ x ∈ entries, ¬ x.event.IsUnending b)
    (v : Option α) : WaitsByEnding c b (entries, .ended t v) :=
  iff_of_false nofun fun ⟨_, x, hx, hunending⟩ => h x hx hunending

theorem WaitsByEnding.preceded {entries : List Entry} {r : List Entry × Progress α}
    (h : WaitsByEnding c b r)
    (hentries : c.endsAt = none → ∀ x ∈ entries, ¬ x.event.IsUnending b) :
    WaitsByEnding c b (preceded entries r) := by
  refine h.trans (and_congr_right fun hc => ⟨?_, ?_⟩)
  · rintro ⟨x, hx, hunending⟩
    exact ⟨x, List.mem_append_right _ hx, hunending⟩
  · rintro ⟨x, hx, hunending⟩
    rcases List.mem_append.1 hx with hx | hx
    · exact absurd hunending (hentries hc x hx)
    · exact ⟨x, hx, hunending⟩

/-- Work with limits waits for ever exactly if its context never ends and it has asked for the end of
a transaction that never comes. -/
theorem Limited.waitsByEnding (hw : w.Limited) : WaitsByEnding c b (run c b none w t) := by
  induction w generalizing t with
  | done a => exact waitsByEnding_ended (List.forall_mem_nil _) (some a)
  | rest => exact hw.elim
  | deadline span inside next ih =>
      cases hl : Clock.after? t span with
      | none =>
          rw [run_deadline_none c b _ inside next hl]
          exact waitsByEnding_ended (fun x => not_unending_of_mem_dropIf) none
      | some t' =>
          rw [run_deadline_some c b _ inside next hl]
          exact ih t' (hw t')
  | perform op limit next ih =>
      obtain ⟨hlimit, hnext⟩ := hw
      rcases run_perform_cases c b none t op limit next with
        ⟨e, -, hr⟩ | ⟨-, ⟨reply, t', -, hcome, hr⟩ | ⟨hwait, hr⟩⟩
      · rw [hr]
        exact (ih _ (hnext _)).preceded fun _ x => not_unending_of_mem_dropIf
      · rw [hr]
        refine (ih reply (hnext reply)).preceded fun hc x hx => ?_
        rw [List.mem_singleton.1 hx]
        exact not_unending_of_await hlimit hcome hc
      · rw [hr]
        obtain ⟨hends, hdue⟩ := Context.await_eq_none_iff.1 hwait
        obtain ⟨hc, rfl⟩ := Context.endsAt_within_eq_none_iff.1 hends
        exact iff_of_true ⟨_, rfl⟩ ⟨hc, _, List.mem_singleton_self _, hlimit.symm,
          Option.map_eq_none_iff.1 hdue⟩
  | consult g payload limit next ih =>
      rcases run_consult_cases c b none t g payload limit next with
        ⟨decision, t', -, hr⟩ | ⟨due, decision, hwait, hr⟩
      · rw [hr]
        refine (ih decision (hw decision)).preceded fun _ x hx => ?_
        rw [List.mem_singleton.1 hx]
        exact id
      · obtain ⟨hends, -⟩ := Context.await_eq_none_iff.1 hwait
        cases (Context.endsAt_within_eq_none_iff.1 hends).2

end Work

end SqlGate
