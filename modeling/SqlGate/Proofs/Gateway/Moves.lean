import SqlGate.Proofs.Gateway.Traffic
import SqlGate.Proofs.Work.Run

/-!
# Work, move by move

Work that is run in one go comes to where a call comes that does the same work in single moves, with
the replies that the database and the guardrails gave in the run: to its end, or to where it waits.
What waits goes on in the same way.
-/

namespace SqlGate

open Work Relation

variable {α : Type}

/-- Work that waits is seen as what it waits for. -/
inductive Work.Pending.Shows : Work.Pending α → Phase α → Prop where
  | resting : Shows .resting (.working .rest)
  | asking {op : Backend.Operation} (next : Reply op.Answer → Work α) (limit due : Option Instant)
    (result : Except Backend.Fault op.Answer) :
    Shows (.busy limit due (next (.answered result)) fun e => next (.late e)) (.asking op next)
  | consulting (g : Guardrail) (payload : String) (until' : Instant)
    (next : Except Guardrail.Fault Guardrail.Response → Work α) (limit due : Option Instant)
    (decision : Except Guardrail.Fault Guardrail.Response) :
    Shows (.busy limit due (next decision) fun e => next (.error ⟨g.name, .ofEnding e⟩))
      (.working (.consult g payload until' next))

inductive Work.Progress.Shows : Work.Progress α → Phase α → Prop where
  | ended (time : Instant) (value : Option α) : Shows (.ended time value) .leaving
  | waiting {p : Work.Pending α} {φ : Phase α} (h : p.Shows φ) : Shows (.waiting p) φ

namespace Visit

variable {v w : Visit α}

theorem Move.call (h : Move v w) : w.call = v.call := by cases h <;> rfl

theorem Move.context (h : Move v w) : w.context = v.context := by cases h <;> rfl

abbrev Moves : Visit α → Visit α → Prop := ReflTransGen Move

theorem Moves.call (h : Moves v w) : w.call = v.call := by
  induction h with
  | refl => rfl
  | tail _ hm ih => exact hm.call.trans ih

theorem Moves.context (h : Moves v w) : w.context = v.context := by
  induction h with
  | refl => rfl
  | tail _ hm ih => exact hm.context.trans ih

variable (c : Context) (b : Backend) (horizon : Option Instant)

/-- Work that is run is done move by move. -/
theorem exists_moves_of_run (work : Work α) (now : Instant) {v : Visit α}
    (hv : v.phase = .working work) :
    ∃ w, Moves v w ∧ (run c b horizon work now).2.Shows w.phase := by
  induction work generalizing now v with
  | done a => exact ⟨_, .single (.finish hv), .ended now (some a)⟩
  | rest => exact ⟨v, .refl, hv ▸ .waiting .resting⟩
  | deadline span inside next ih =>
      cases h : Clock.after? now span with
      | none =>
          rw [run_deadline_none c b horizon _ _ h]
          exact ⟨_, .single (.breakOff hv), .ended now none⟩
      | some t =>
          rw [run_deadline_some c b horizon _ _ h]
          obtain ⟨w, hm, hw⟩ := ih t now (v := { v with phase := .working (next t) }) rfl
          exact ⟨w, .head (.deadline t hv) hm, hw⟩
  | perform op limit next ih =>
      -- Whatever the reply, the rest of the work is done from there.
      have go : ∀ (r : Reply op.Answer) (t : Instant), ∃ w,
          Moves { v with phase := .asking op next } w ∧
            (run c b horizon (next r) t).2.Shows w.phase := by
        intro r t
        obtain ⟨w, hm, hw⟩ := ih r t (v := { v with
          phase := .working (next r)
          inTransaction := op.owned r v.inTransaction }) rfl
        exact ⟨w, .head (.reply (v := { v with phase := .asking op next }) r rfl) hm, hw⟩
      cases h : (c.within limit).status now with
      | some e =>
          rw [run_perform_over c b horizon _ h]
          obtain ⟨w, hm, hw⟩ := ih (.late e) now (v := { v with
            phase := .working (next (.late e))
            inTransaction := op.owned (.late e) v.inTransaction }) rfl
          exact ⟨w, .head (.skip e hv) hm, hw⟩
      | none =>
          cases hw : (c.within limit).await horizon now ((b.behaviour op).delay.map (now + ·)) with
          | none =>
              rw [run_perform_waiting c b horizon _ h hw]
              exact ⟨_, .single (.ask hv), .waiting (.asking next _ _ _)⟩
          | some outcome =>
              obtain ⟨t, ending⟩ := outcome
              cases ending with
              | none =>
                  rw [run_perform_answered c b horizon _ h hw]
                  obtain ⟨w, hm, hs⟩ := go (.answered (b.behaviour op).result) t
                  exact ⟨w, .head (.ask hv) hm, hs⟩
              | some e =>
                  rw [run_perform_late c b horizon _ h hw]
                  obtain ⟨w, hm, hs⟩ := go (.late e) t
                  exact ⟨w, .head (.ask hv) hm, hs⟩
  | consult g payload limit next ih =>
      have go : ∀ (d : Except Guardrail.Fault Guardrail.Response) (t : Instant), ∃ w,
          Moves v w ∧ (run c b horizon (next d) t).2.Shows w.phase := by
        intro d t
        obtain ⟨w, hm, hw⟩ := ih d t (v := { v with phase := .working (next d) }) rfl
        exact ⟨w, .head (.decide d hv) hm, hw⟩
      cases h : g.fate payload with
      | failsAtOnce cause =>
          rw [run_consult_atOnce c b horizon _ _ h]
          exact go _ now
      | decides delay decision =>
          cases hw : (c.within (some limit)).await horizon now (delay.map (now + ·)) with
          | none =>
              rw [run_consult_waiting c b horizon _ h hw]
              exact ⟨v, .refl, hv ▸ .waiting (.consulting g payload limit next _ _ _)⟩
          | some outcome =>
              obtain ⟨t, ending⟩ := outcome
              cases ending with
              | none =>
                  rw [run_consult_decided c b horizon _ h hw]
                  exact go _ t
              | some e =>
                  rw [run_consult_late c b horizon _ h hw]
                  exact go _ t

/-- What waits goes on with what it waited for, or with having given up. -/
theorem exists_moves_of_shows {limit due : Option Instant} {finished : Work α}
    {givenUp : Context.Ending → Work α} {v : Visit α}
    (h : (Work.Pending.busy limit due finished givenUp).Shows v.phase) :
    (∃ w, Move v w ∧ w.phase = .working finished) ∧
      ∀ e, ∃ w, Move v w ∧ w.phase = .working (givenUp e) := by
  generalize hp : Work.Pending.busy limit due finished givenUp = p at h
  generalize hφ : v.phase = φ at h
  cases h with
  | resting => cases hp
  | asking next limit due result =>
      cases hp
      exact ⟨⟨_, .reply _ hφ, rfl⟩, fun e => ⟨_, .reply _ hφ, rfl⟩⟩
  | consulting g payload until' next limit due decision =>
      cases hp
      exact ⟨⟨_, .decide _ hφ, rfl⟩, fun e => ⟨_, .decide _ hφ, rfl⟩⟩

theorem exists_move_leaving {p : Work.Pending α} {v : Visit α} (h : p.Shows v.phase) :
    ∃ w, Move v w ∧ w.phase = .leaving := by
  generalize hφ : v.phase = φ at h
  cases h with
  | resting => exact ⟨_, .dropWorking hφ, rfl⟩
  | asking next limit due result => exact ⟨_, .dropAsking hφ, rfl⟩
  | consulting g payload until' next limit due decision => exact ⟨_, .dropWorking hφ, rfl⟩

theorem exists_moves_of_resume {p : Work.Pending α} (now : Instant) {v : Visit α}
    (h : p.Shows v.phase) :
    ∃ w, Moves v w ∧ (p.resume c b horizon now).2.Shows w.phase := by
  cases p with
  | resting => exact ⟨v, .refl, .waiting h⟩
  | busy limit due finished givenUp =>
      obtain ⟨⟨w, hfin, hw⟩, hgive⟩ := exists_moves_of_shows h
      cases ha : (c.within limit).await horizon now due with
      | none =>
          refine ⟨v, .refl, ?_⟩
          simp only [Work.Pending.resume, ha]
          exact .waiting h
      | some outcome =>
          obtain ⟨t, ending⟩ := outcome
          cases ending with
          | none =>
              simp only [Work.Pending.resume, ha]
              obtain ⟨w', hm, hs⟩ := exists_moves_of_run c b horizon finished t hw
              exact ⟨w', .head hfin hm, hs⟩
          | some e =>
              obtain ⟨w, hgive, hw⟩ := hgive e
              simp only [Work.Pending.resume, ha]
              obtain ⟨w', hm, hs⟩ := exists_moves_of_run c b horizon (givenUp e) t hw
              exact ⟨w', .head hgive hm, hs⟩

end Visit

end SqlGate
