import SqlGate.Proofs.Work.Proper

/-!
# Running up to a horizon, and on

A run up to a horizon and then on from there without one is the same as a run without one
(`complete_run`), also for work that waits (`complete_resume`). So time may pass in any portions.
What has ended by a run up to a horizon has ended by then.
-/

namespace SqlGate

namespace Context

variable {c : Context} {horizon due : Option Instant} {h now : Instant}

/-- What has not come by a horizon is waited for from there as before. -/
theorem await_of_await_eq_none (hle : now ≤ h) (hw : c.await (some h) now due = none) :
    c.await none h due = c.await none now due := by
  rw [← c.within_none] at hw
  have hend := (lt_of_await_eq_none hle hw).2
  have hlater : c.status h = none := (c.status_eq_none_iff h).2 hend
  rw [await_of_live hlater, await_of_live (c.status_eq_none_of_le hle hlater)]

end Context

namespace Work

variable {α : Type} (c : Context) (b : Backend)

/-- What waits at a horizon goes on without one. -/
def Pending.beyond (p : Pending α) : Option Instant → List Entry × Progress α
  | none => ([], .waiting p)
  | some h => p.resume c b none h

/-- A run that came to a horizon goes on without one. -/
def complete (horizon : Option Instant) : List Entry × Progress α → List Entry × Progress α
  | (entries, .waiting p) => preceded entries (p.beyond c b horizon)
  | (entries, .ended t v) => (entries, .ended t v)

theorem complete_preceded (horizon : Option Instant) (entries : List Entry)
    (r : List Entry × Progress α) :
    complete c b horizon (preceded entries r) = preceded entries (complete c b horizon r) := by
  obtain ⟨more, p⟩ := r
  cases p with
  | ended t v => rfl
  | waiting p => simp [complete, preceded]

@[simp] theorem complete_none (r : List Entry × Progress α) : complete c b none r = r := by
  obtain ⟨entries, p⟩ := r
  cases p with
  | ended t v => rfl
  | waiting p => exact congrArg (·, Progress.waiting p) (List.append_nil entries)

section Busy

variable {c : Context} {b : Backend} {horizon limit due : Option Instant} {now : Instant}
  (finished : Work α) (givenUp : Context.Ending → Work α)

/-- What waits for something goes on with it, or without it. -/
theorem resume_busy_of_some {t : Instant} {o : Option Context.Ending}
    (hw : (c.within limit).await horizon now due = some (t, o)) :
    (Pending.busy limit due finished givenUp).resume c b horizon now =
      run c b horizon (o.elim finished givenUp) t := by
  rw [Pending.resume, hw]
  cases o <;> rfl

theorem resume_busy_of_none (hw : (c.within limit).await horizon now due = none) :
    (Pending.busy limit due finished givenUp).resume c b horizon now =
      ([], .waiting (.busy limit due finished givenUp)) := by
  rw [Pending.resume, hw]

/-- What has not come by a horizon goes on from there as it would have without one. -/
theorem beyond_busy (hnow : Clock.isWithin horizon now = true)
    (hw : (c.within limit).await horizon now due = none) :
    (Pending.busy limit due finished givenUp).beyond c b horizon =
      (Pending.busy limit due finished givenUp).resume c b none now := by
  cases horizon with
  | none => exact (resume_busy_of_none finished givenUp hw).symm
  | some h =>
      have hsame := Context.await_of_await_eq_none (Clock.isWithin_some.1 hnow) hw
      simp only [Pending.beyond, Pending.resume, hsame]

end Busy

variable {c b} {horizon : Option Instant} {now : Instant}

/-- Asking the database is waiting for it, once the question was put. -/
theorem run_perform_resume {op : Backend.Operation} {limit : Option Instant}
    (next : Reply op.Answer → Work α) (hs : (c.within limit).status now = none) :
    run c b horizon (.perform op limit next) now = preceded [⟨now, .asked op⟩]
      ((Pending.busy limit ((b.behaviour op).delay.map (now + ·))
        (next (.answered (b.behaviour op).result)) fun e => next (.late e)).resume c b horizon
          now) := by
  rw [run_perform_eq, hs]
  rfl

theorem run_consult_resume {g : Guardrail} {payload : String} {limit : Instant}
    (next : Except Guardrail.Fault Guardrail.Response → Work α) {delay : Option Nat}
    {decision : Except Guardrail.Cause Guardrail.Response}
    (hf : g.fate payload = .decides delay decision) :
    run c b horizon (.consult g payload limit next) now =
      preceded [⟨now, .consulted g.name payload⟩] ((Pending.busy (some limit) (delay.map (now + ·))
        (next (decision.mapError (Guardrail.Fault.mk g.name)))
        fun e => next (.error ⟨g.name, .ofEnding e⟩)).resume c b horizon now) := by
  rw [run_consult_eq, hf]
  rfl

/-- Whatever is waited for, if going on after it may be cut at the horizon, so may waiting. -/
theorem complete_resume_busy {limit due : Option Instant} {finished : Work α}
    {givenUp : Context.Ending → Work α} (hnow : Clock.isWithin horizon now = true)
    (hrun : ∀ o t, Clock.isWithin horizon t = true →
      complete c b horizon (run c b horizon (Option.elim o finished givenUp) t) =
        run c b none (Option.elim o finished givenUp) t) :
    complete c b horizon ((Pending.busy limit due finished givenUp).resume c b horizon now) =
      (Pending.busy limit due finished givenUp).resume c b none now := by
  cases hw : (c.within limit).await horizon now due with
  | none =>
      rw [resume_busy_of_none finished givenUp hw, ← beyond_busy finished givenUp hnow hw]
      rfl
  | some x =>
      obtain ⟨t, o⟩ := x
      obtain ⟨hnone, ht⟩ := Context.await_eq_some_iff.1 hw
      rw [resume_busy_of_some finished givenUp hw, resume_busy_of_some finished givenUp hnone]
      exact hrun o t ht

/-- A run may be cut at a horizon. -/
theorem complete_run (w : Work α) (hnow : Clock.isWithin horizon now = true) :
    complete c b horizon (run c b horizon w now) = run c b none w now := by
  induction w generalizing now with
  | done a => rfl
  | rest => cases horizon <;> rfl
  | deadline span inside next ih =>
      cases hl : Clock.after? now span with
      | none =>
          rw [run_deadline_none c b _ _ _ hl, run_deadline_none c b _ _ _ hl]
          rfl
      | some t =>
          rw [run_deadline_some c b _ _ _ hl, run_deadline_some c b _ _ _ hl]
          exact ih t hnow
  | perform op limit next ih =>
      cases hs : (c.within limit).status now with
      | some e =>
          rw [run_perform_over c b _ _ hs, run_perform_over c b _ _ hs, complete_preceded,
            ih _ hnow]
      | none =>
          rw [run_perform_resume next hs, run_perform_resume next hs, complete_preceded,
            complete_resume_busy hnow fun o t ht => ?_]
          cases o <;> exact ih _ ht
  | consult g payload limit next ih =>
      cases hf : g.fate payload with
      | failsAtOnce cause =>
          rw [run_consult_atOnce c b _ _ _ hf, run_consult_atOnce c b _ _ _ hf,
            complete_preceded, ih _ hnow]
      | decides delay decision =>
          rw [run_consult_resume next hf, run_consult_resume next hf, complete_preceded,
            complete_resume_busy hnow fun o t ht => ?_]
          cases o <;> exact ih _ ht

/-- Going on with what waits may be cut at a horizon. -/
theorem complete_resume (p : Pending α) (hnow : Clock.isWithin horizon now = true) :
    complete c b horizon (p.resume c b horizon now) = p.resume c b none now := by
  cases p with
  | resting => cases horizon <;> rfl
  | busy limit due finished givenUp =>
      exact complete_resume_busy hnow fun o t ht => complete_run _ ht

/-! ## What has ended by a horizon -/

theorem isWithin_of_resume {limit due : Option Instant} {finished : Work α}
    {givenUp : Context.Ending → Work α}
    (hrun : ∀ o s t v, Clock.isWithin horizon s = true →
      (run c b horizon (Option.elim o finished givenUp) s).2 = .ended t v →
        Clock.isWithin horizon t = true) {t : Instant} {v : Option α}
    (hend : ((Pending.busy limit due finished givenUp).resume c b horizon now).2 = .ended t v) :
    Clock.isWithin horizon t = true := by
  cases hw : (c.within limit).await horizon now due with
  | none =>
      rw [resume_busy_of_none finished givenUp hw] at hend
      cases hend
  | some x =>
      obtain ⟨s, o⟩ := x
      rw [resume_busy_of_some finished givenUp hw] at hend
      exact hrun o s t v (Context.await_eq_some_iff.1 hw).2 hend

theorem isWithin_run (w : Work α) (hnow : Clock.isWithin horizon now = true) {t : Instant}
    {v : Option α} (hend : (run c b horizon w now).2 = .ended t v) :
    Clock.isWithin horizon t = true := by
  induction w generalizing now t v with
  | done a =>
      cases hend
      exact hnow
  | rest => cases hend
  | deadline span inside next ih =>
      cases hl : Clock.after? now span with
      | none =>
          rw [run_deadline_none c b _ _ _ hl] at hend
          cases hend
          exact hnow
      | some d =>
          rw [run_deadline_some c b _ _ _ hl] at hend
          exact ih d hnow hend
  | perform op limit next ih =>
      cases hs : (c.within limit).status now with
      | some e =>
          rw [run_perform_over c b _ _ hs] at hend
          exact ih _ hnow hend
      | none =>
          rw [run_perform_resume next hs] at hend
          refine isWithin_of_resume (fun o s t v hs hr => ?_) hend
          cases o <;> exact ih _ hs hr
  | consult g payload limit next ih =>
      cases hf : g.fate payload with
      | failsAtOnce cause =>
          rw [run_consult_atOnce c b _ _ _ hf] at hend
          exact ih _ hnow hend
      | decides delay decision =>
          rw [run_consult_resume next hf] at hend
          refine isWithin_of_resume (fun o s t v hs hr => ?_) hend
          cases o <;> exact ih _ hs hr

theorem isWithin_resume (p : Pending α) {t : Instant} {v : Option α}
    (hend : (p.resume c b horizon now).2 = .ended t v) : Clock.isWithin horizon t = true := by
  cases p with
  | resting => cases hend
  | busy limit due finished givenUp =>
      exact isWithin_of_resume (fun o s t v hs hr => isWithin_run _ hs hr) hend

end Work

end SqlGate
