import SqlGate.Proofs.Context.Await
import SqlGate.Proofs.Work.Run

/-!
# Work within its context

The database is asked only in a context that is live at that very instant, and nothing goes on
beyond the end of the context: `Proper` says this of a run, and every run of work that does not rest
is proper (`run_proper`), from its beginning and from where it waited (`Pending.Sound.resume`).
-/

namespace SqlGate

namespace Work

/-! ## One request -/

section Request

variable {α : Type} (c : Context) (b : Backend) (horizon : Option Instant) (now : Instant)

/-- An answer after some delay never comes before the question. -/
theorem le_of_map_add {delay : Option Nat} {d : Instant} (h : delay.map (now + ·) = some d) :
    now ≤ d := by
  obtain ⟨delay, -, rfl⟩ := Option.map_eq_some_iff.1 h
  exact Nat.le_add_right now delay

/-- What asking the database comes to: it is not asked in a context that is over, and else the work
goes on from an instant that comes, or waits. -/
theorem run_perform_cases (op : Backend.Operation) (limit : Option Instant)
    (next : Reply op.Answer → Work α) :
    let due := (b.behaviour op).delay.map (now + ·)
    (∃ e, (c.within limit).status now = some e ∧
      run c b horizon (.perform op limit next) now =
        preceded (refusal op now) (run c b horizon (next (.late e)) now)) ∨
    c.status now = none ∧
      ((∃ reply t, c.Comes horizon now t ∧
        ((c.within limit).await horizon now due).isSome = true ∧
        run c b horizon (.perform op limit next) now =
          preceded [⟨now, .asked op⟩] (run c b horizon (next reply) t)) ∨
      (c.within limit).await horizon now due = none ∧
        run c b horizon (.perform op limit next) now =
          ([⟨now, .asked op⟩], .waiting (.busy limit due (next (.answered (b.behaviour op).result))
            fun e => next (.late e)))) := by
  intro due
  cases hs : (c.within limit).status now with
  | some e => exact .inl ⟨e, rfl, run_perform_over c b horizon next hs⟩
  | none =>
      refine .inr ⟨Context.status_of_within hs, ?_⟩
      cases hw : (c.within limit).await horizon now due with
      | none => exact .inr ⟨rfl, run_perform_waiting c b horizon next hs hw⟩
      | some outcome =>
          obtain ⟨t, ending⟩ := outcome
          have hcomes := Context.comes_of_await (fun _ => le_of_map_add now) hw
          cases ending with
          | none => exact .inl ⟨_, t, hcomes, rfl, run_perform_answered c b horizon next hs hw⟩
          | some e => exact .inl ⟨_, t, hcomes, rfl, run_perform_late c b horizon next hs hw⟩

/-- What showing a text to a guardrail comes to. -/
theorem run_consult_cases (g : Guardrail) (payload : String) (limit : Instant)
    (next : Except Guardrail.Fault Guardrail.Response → Work α) :
    (∃ decision t, (Clock.isWithin horizon now = true → c.Comes horizon now t) ∧
      run c b horizon (.consult g payload limit next) now =
        preceded [⟨now, .consulted g.name payload⟩] (run c b horizon (next decision) t)) ∨
    ∃ due decision, (c.within (some limit)).await horizon now due = none ∧
      run c b horizon (.consult g payload limit next) now =
        ([⟨now, .consulted g.name payload⟩], .waiting (.busy (some limit) due (next decision)
          fun e => next (.error ⟨g.name, .ofEnding e⟩))) := by
  cases hf : g.fate payload with
  | failsAtOnce cause =>
      exact .inl ⟨_, now, fun hnow => ⟨le_rfl, hnow, fun e _ => le_max_left now e⟩,
        run_consult_atOnce c b horizon limit next hf⟩
  | decides delay decision =>
      cases hw : (c.within (some limit)).await horizon now (delay.map (now + ·)) with
      | none => exact .inr ⟨_, _, hw, run_consult_waiting c b horizon next hf hw⟩
      | some outcome =>
          obtain ⟨t, ending⟩ := outcome
          have hcomes := Context.comes_of_await (fun _ => le_of_map_add now) hw
          cases ending with
          | none =>
              exact .inl ⟨_, t, fun _ => hcomes, run_consult_decided c b horizon next hf hw⟩
          | some e => exact .inl ⟨_, t, fun _ => hcomes, run_consult_late c b horizon next hf hw⟩

end Request

theorem mem_dropIf {inside : Bool} {now : Instant} {x : Entry} :
    x ∈ dropIf inside now ↔ inside = true ∧ x = ⟨now, .dropped⟩ := by
  cases inside <;> simp [dropIf]

/-! ## Work that does not rest -/

variable {α : Type}

/-- Work that never goes on just to hold its slot. -/
def Restless : Work α → Prop
  | .done _ => True
  | .deadline _ _ next => ∀ t, (next t).Restless
  | .perform _ _ next => ∀ r, (next r).Restless
  | .consult _ _ _ next => ∀ d, (next d).Restless
  | .rest => False

/-- Work that waits for something that is still to come, and goes on without resting. -/
def Pending.Sound (now : Instant) : Pending α → Prop
  | .busy _ due finished givenUp =>
    (∀ d, due = some d → now < d) ∧ finished.Restless ∧ ∀ e, (givenUp e).Restless
  | .resting => False

/-- What a run does from an instant on, up to a horizon: it asks the database only in a live
context, it ends by the end of the context unless that has passed, and it waits at the horizon only
in a live context. -/
structure Proper (c : Context) (start h : Instant) (r : List Entry × Progress α) : Prop where
  le : ∀ x ∈ r.1, start ≤ x.time ∧ x.time ≤ h
  live : ∀ x ∈ r.1, ∀ op, x.event = .asked op → c.status x.time = none
  ended : ∀ t v, r.2 = .ended t v → start ≤ t ∧ ∀ e, c.endsAt = some e → t ≤ max start e
  waiting : ∀ p, r.2 = .waiting p → c.status h = none ∧ p.Sound h

section Run

variable {c : Context} {b : Backend} {h now t : Instant} {w : Work α} {entries : List Entry}
  {r : List Entry × Progress α}

theorem proper_ended (hnow : now ≤ h) (v : Option α) (hle : ∀ x ∈ entries, x.time = now)
    (hlive : ∀ x ∈ entries, ∀ op, x.event ≠ .asked op) :
    Proper c now h (entries, .ended now v) where
  le x hx := ⟨(hle x hx).ge, (hle x hx).trans_le hnow⟩
  live x hx op hop := absurd hop (hlive x hx op)
  ended t v ht := by
    cases ht
    exact ⟨le_rfl, fun e _ => le_max_left now e⟩
  waiting p hp := nomatch hp

/-- A proper run stays proper when something came before it. -/
theorem Proper.preceded (hr : Proper c t h r) (hnow : now ≤ t) (hth : t ≤ h)
    (hend : ∀ e, c.endsAt = some e → t ≤ max now e) (hle : ∀ x ∈ entries, x.time = now)
    (hlive : ∀ x ∈ entries, ∀ op, x.event = .asked op → c.status now = none) :
    Proper c now h (preceded entries r) where
  le x hx := by
    rcases List.mem_append.1 hx with hx | hx
    · exact ⟨(hle x hx).ge, (hle x hx).trans_le (hnow.trans hth)⟩
    · exact ⟨hnow.trans (hr.le x hx).1, (hr.le x hx).2⟩
  live x hx op hop := by
    rcases List.mem_append.1 hx with hx | hx
    · exact hle x hx ▸ hlive x hx op hop
    · exact hr.live x hx op hop
  ended t' v ht' := by
    obtain ⟨hle', hlate⟩ := hr.ended t' v ht'
    exact ⟨hnow.trans hle', fun e he =>
      (hlate e he).trans (max_le (hend e he) (le_max_right now e))⟩
  waiting := hr.waiting

theorem Proper.later (hr : Proper c t h r) (hnow : now ≤ t) (hth : t ≤ h)
    (hend : ∀ e, c.endsAt = some e → t ≤ max now e) : Proper c now h r := by
  have hnil : ∀ x ∈ ([] : List Entry), x.time = now := nofun
  exact hr.preceded hnow hth hend hnil nofun

/-- Every run is proper. -/
theorem run_proper (hw : w.Restless) (hnow : now ≤ h) : Proper c now h (run c b (some h) w now) := by
  have hdrop : ∀ {inside : Bool} {now : Instant}, ∀ x ∈ dropIf inside now,
      x.time = now ∧ ∀ op, x.event ≠ .asked op := by
    intro inside now x hx
    obtain ⟨-, rfl⟩ := mem_dropIf.1 hx
    exact ⟨rfl, fun op hc => nomatch hc⟩
  induction w generalizing now with
  | done a => exact proper_ended hnow (some a) (by simp) (by simp)
  | rest => exact hw.elim
  | deadline span inside next ih =>
      cases hl : Clock.after? now span with
      | none =>
          rw [run_deadline_none c b _ inside next hl]
          exact proper_ended hnow none (fun x hx => (hdrop x hx).1) fun x hx => (hdrop x hx).2
      | some t =>
          rw [run_deadline_some c b _ inside next hl]
          exact ih t (hw t) hnow
  | perform op limit next ih =>
      rcases run_perform_cases c b (some h) now op limit next with
        ⟨e, -, hr⟩ | ⟨hs, ⟨reply, t, ht, -, hr⟩ | ⟨hwait, hr⟩⟩
      · rw [hr]
        exact (ih _ (hw _) hnow).preceded le_rfl hnow (fun e _ => le_max_left now e)
          (fun x hx => (hdrop x hx).1) fun x hx op hop => absurd hop ((hdrop x hx).2 op)
      · rw [hr]
        have hth : t ≤ h := Clock.isWithin_some.1 ht.within
        exact (ih reply (hw reply) hth).preceded ht.le hth ht.byEnd (by simp) fun _ _ _ _ => hs
      · rw [hr]
        obtain ⟨hdue, hend⟩ := Context.lt_of_await_eq_none hnow hwait
        exact ⟨by simp [hnow], by simp [hs], nofun, fun p hp => Progress.waiting.inj hp ▸
          ⟨(c.status_eq_none_iff h).2 hend, hdue, hw _, fun e => hw _⟩⟩
  | consult g payload limit next ih =>
      rcases run_consult_cases c b (some h) now g payload limit next with
        ⟨decision, t, ht, hr⟩ | ⟨due, decision, hwait, hr⟩
      · rw [hr]
        have ht := ht (Clock.isWithin_some.2 hnow)
        have hth : t ≤ h := Clock.isWithin_some.1 ht.within
        exact (ih decision (hw decision) hth).preceded ht.le hth ht.byEnd (by simp) (by simp)
      · rw [hr]
        obtain ⟨hdue, hend⟩ := Context.lt_of_await_eq_none hnow hwait
        exact ⟨by simp [hnow], by simp, nofun, fun p hp => Progress.waiting.inj hp ▸
          ⟨(c.status_eq_none_iff h).2 hend, hdue, hw decision, fun e => hw _⟩⟩

/-- What waits goes on properly. -/
theorem Pending.Sound.resume {p : Pending α} (hp : p.Sound now) (hnow : now ≤ h) :
    Proper c now h (p.resume c b (some h) now) := by
  cases p with
  | resting => exact hp.elim
  | busy limit due finished givenUp =>
      obtain ⟨hdue, hfinished, hgivenUp⟩ := hp
      cases hw : (c.within limit).await (some h) now due with
      | none =>
          obtain ⟨hlater, hend⟩ := Context.lt_of_await_eq_none hnow hw
          rw [Pending.resume, hw]
          exact ⟨by simp, by simp, nofun, fun p hp => Progress.waiting.inj hp ▸
            ⟨(c.status_eq_none_iff h).2 hend, hlater, hfinished, hgivenUp⟩⟩
      | some outcome =>
          obtain ⟨t, ending⟩ := outcome
          have ht := Context.comes_of_await (fun d hd => (hdue d hd).le) hw
          have hth : t ≤ h := Clock.isWithin_some.1 ht.within
          rw [Pending.resume, hw]
          cases ending with
          | none => exact (run_proper hfinished hth).later ht.le hth ht.byEnd
          | some e => exact (run_proper (hgivenUp e) hth).later ht.le hth ht.byEnd

/-- What is waited for is given up when the context is over before it comes. -/
theorem Pending.resume_late (limit : Option Instant) {due : Option Instant} (finished : Work α)
    (givenUp : Context.Ending → Work α) {e : Instant} (he : c.endsAt = some e) (hle : e ≤ h) (hnow : now ≤ h)
    (hdue : ∀ d, due = some d → e ≤ d) :
    ∃ why t, t ≤ max now e ∧ (Pending.busy limit due finished givenUp).resume c b (some h) now =
      run c b (some h) (givenUp why) t := by
  cases hw : (c.within limit).await (some h) now due with
  | none => exact absurd hle (not_le.2 ((Context.lt_of_await_eq_none hnow hw).2 e he))
  | some outcome =>
      obtain ⟨t, ending⟩ := outcome
      rw [Pending.resume, hw]
      obtain ⟨hw, -⟩ := Context.await_eq_some_iff.1 hw
      cases ending with
      | some why =>
          refine ⟨why, t, ?_, rfl⟩
          rcases Context.await_late hw with rfl | ⟨-, ht⟩
          · exact le_max_left t e
          · exact le_max_of_le_right (Context.endsAt_within_le ht he)
      | none =>
          obtain ⟨-, hd, -⟩ := (Context.await_eq_done_iff _ now due t).1 hw
          have hlive : c.status t = none := Context.status_of_within (Context.status_of_await_done hw)
          exact absurd (hdue t hd) (not_le.2 ((c.status_eq_none_iff t).1 hlive e he))

end Run

end Work

end SqlGate
