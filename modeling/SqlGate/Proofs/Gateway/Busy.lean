import SqlGate.Proofs.Gateway.Traffic

/-!
# Busy calls have slots

If the work of all calls keeps order with transactions, a call that is inside an operation on the
database, or in possession of a transaction, is past the queue and not about to leave. So it has a
slot, has had it since before it became busy, and keeps it until it is busy no more.
-/

namespace SqlGate

namespace Visit

variable {α : Type} {v w : Visit α}

/-- What a call still has to do keeps order with what it owns, and it owns nothing in the end. -/
def Orderly (v : Visit α) : Prop :=
  match v.phase with
  | .queued => v.inTransaction = false ∧ v.call.work.Orderly (Work.Owning false) false
  | .resigned => v.inTransaction = false
  | .working work => work.Orderly (Work.Owning false) v.inTransaction
  | .asking op next => v.inTransaction = op.isInside ∧
      ∀ r, (next r).Orderly (Work.Owning false) (op.owned r v.inTransaction)
  | .leaving => v.inTransaction = false
  | .gone => v.inTransaction = false

theorem orderly_working {work : Work α} (h : v.phase = .working work) :
    v.Orderly ↔ work.Orderly (Work.Owning false) v.inTransaction := by
  unfold Orderly
  rw [h]

theorem orderly_asking {op : Backend.Operation} {next : Reply op.Answer → Work α}
    (h : v.phase = .asking op next) :
    v.Orderly ↔ v.inTransaction = op.isInside ∧
      ∀ r, (next r).Orderly (Work.Owning false) (op.owned r v.inTransaction) := by
  unfold Orderly
  rw [h]

theorem Move.orderly (h : Move v w) (hv : v.Orderly) : w.Orderly := by
  cases h with
  | deadline t h => exact ((orderly_working h).1 hv).2 t
  | breakOff h =>
      obtain ⟨hinside, -⟩ := (orderly_working h).1 hv
      change (v.inTransaction && !_) = false
      rw [hinside, Bool.and_not_self]
  | ask h => exact (orderly_working h).1 hv
  | skip e h => exact ((orderly_working h).1 hv).2 (.late e)
  | reply r h => exact ((orderly_asking h).1 hv).2 r
  | decide d h => exact (orderly_working h).1 hv d
  | finish h => exact (orderly_working h).1 hv
  | dropWorking h => rfl
  | dropAsking h => rfl

/-- A call owns a transaction only between the beginning of its work and its end. -/
theorem Orderly.inTransaction_eq_false (h : v.Orderly) (ha : v.phase.isActive = false) :
    v.inTransaction = false := by
  unfold Orderly at h
  cases hφ : v.phase with
  | queued =>
      rw [hφ] at h
      exact h.1
  | working work =>
      rw [hφ] at ha
      cases ha
  | asking op next =>
      rw [hφ] at ha
      cases ha
  | _ =>
      rw [hφ] at h
      exact h

theorem Orderly.isActive_of_isBusy (h : v.Orderly) (hb : v.isBusy = true) :
    v.phase.isActive = true := by
  by_contra ha
  rw [Bool.not_eq_true] at ha
  have hasking : v.phase.isAsking = false := by
    cases hφ : v.phase with
    | asking op next =>
        rw [hφ] at ha
        cases ha
    | _ => rfl
  rw [isBusy, hasking, h.inTransaction_eq_false ha] at hb
  cases hb

theorem Becomes.orderly (h : v.Becomes w) (hv : v.Orderly) : w.Orderly := by
  cases h with
  | same => exact hv
  | begin h =>
      have howned : v.inTransaction = false := hv.inTransaction_eq_false (by rw [h]; rfl)
      unfold Orderly at hv
      rw [h] at hv
      change v.call.work.Orderly (Work.Owning false) v.inTransaction
      rw [howned]
      exact hv.2
  | resign h => exact hv.inTransaction_eq_false (by rw [h]; rfl)
  | move h => exact h.orderly hv
  | go h =>
      refine hv.inTransaction_eq_false ?_
      rcases h with h | h
      · exact Phase.isActive_of_isWaiting h
      · rw [h]
        rfl

/-- A call that is busy before a step has been served before the step and after it. -/
theorem Becomes.isServed_of_isBusy (h : v.Becomes w) (hv : v.Orderly) (hb : v.isBusy = true) :
    v.phase.isServed = true ∧ w.phase.isServed = true := by
  have ha := hv.isActive_of_isBusy hb
  have hs := Phase.isServed_of_isActive ha
  refine ⟨hs, ?_⟩
  cases h with
  | same => exact hs
  | begin h => rfl
  | resign h =>
      rw [h] at ha
      cases ha
  | move h => exact h.isServed_right
  | go h =>
      rcases h with h | h
      · rw [Phase.isActive_of_isWaiting h] at ha
        cases ha
      · rw [h] at ha
        cases ha

/-- So has a call that is busy after it: no call becomes busy by the step by which it is served. -/
theorem Becomes.isServed_of_isBusy_right (h : v.Becomes w) (hv : v.Orderly)
    (hb : w.isBusy = true) : v.phase.isServed = true ∧ w.phase.isServed = true := by
  have hs := Phase.isServed_of_isActive ((h.orderly hv).isActive_of_isBusy hb)
  refine ⟨?_, hs⟩
  cases h with
  | same => exact hs
  | begin h =>
      have howned : v.inTransaction = false := hv.inTransaction_eq_false (by rw [h]; rfl)
      change v.inTransaction = true at hb
      rw [howned] at hb
      cases hb
  | resign h => cases hs
  | move h => exact h.isServed
  | go h => cases hs

end Visit

namespace Traffic

variable {α : Type} {comes : Call α → Prop} {pool : Admission.Pool} {t t' : Traffic α} {i : Nat}

def Orderly (t : Traffic α) : Prop := ∀ (i : Nat) (v : Visit α), t.visits[i]? = some v → v.Orderly

theorem Orderly.step (hcomes : ∀ call, comes call → call.work.Orderly (Work.Owning false) false)
    (h : t.Orderly) (hs : Step comes t t') : t'.Orderly := by
  intro i w hw
  rcases hs.rel_becomes i with hrel | ⟨-, call, context, hc, hfresh⟩
  · rw [hw] at hrel
    generalize hv : t.visits[i]? = x at hrel
    cases hrel with
    | some hb => exact hb.orderly (h i _ hv)
  · obtain rfl := Option.some.inj (hw.symm.trans hfresh)
    exact ⟨rfl, hcomes call hc⟩

theorem Reachable.orderly
    (hcomes : ∀ call, comes call → call.work.Orderly (Work.Owning false) false)
    (h : Reachable comes pool t) : t.Orderly := by
  induction h with
  | refl =>
      intro i v hv
      cases hv
  | tail _ hs ih => exact ih.step hcomes hs

theorem Sound.mem_holders_of_busy (h : t.Sound) (ho : t.Orderly) (hi : i ∈ t.busy) :
    i ∈ t.pool.holders := by
  obtain ⟨v, hv, hb⟩ := mem_those.1 hi
  exact h.served i v hv (Phase.isServed_of_isActive ((ho i v hv).isActive_of_isBusy hb))

theorem Sound.length_busy_le (h : t.Sound) (ho : t.Orderly) :
    t.busy.length ≤ t.pool.capacity := by
  have hsub : t.busy.Subperm t.pool.holders :=
    (t.nodup_those _).subperm fun i hi => h.mem_holders_of_busy ho hi
  exact hsub.length_le.trans (h.valid.count ▸ Nat.le_add_left _ _)

/-- A call that is busy before a step or after it has its slot before it and after it. -/
theorem Sound.mem_holders_of_step (h : t.Sound) (ho : t.Orderly) (hs : Step comes t t')
    (hi : i ∈ t.busy ∨ i ∈ t'.busy) : i ∈ t.pool.holders ∧ i ∈ t'.pool.holders := by
  have hrel := hs.rel_becomes i
  have hserved : ∃ v w, t.visits[i]? = some v ∧ t'.visits[i]? = some w ∧
      v.phase.isServed = true ∧ w.phase.isServed = true := by
    rcases hi with hi | hi
    · obtain ⟨v, hv, hb⟩ := mem_those.1 hi
      rw [hv] at hrel
      rcases hrel with hrel | ⟨hnone, -⟩
      · generalize t'.visits[i]? = x at hrel
        cases hrel with
        | some hbecomes => exact ⟨v, _, hv, rfl, hbecomes.isServed_of_isBusy (ho i v hv) hb⟩
      · cases hnone
    · obtain ⟨w, hw, hb⟩ := mem_those.1 hi
      rw [hw] at hrel
      rcases hrel with hrel | ⟨-, call, context, -, hfresh⟩
      · generalize hv : t.visits[i]? = x at hrel
        cases hrel with
        | some hbecomes => exact ⟨_, w, rfl, hw, hbecomes.isServed_of_isBusy_right (ho i _ hv) hb⟩
      · obtain rfl := Option.some.inj hfresh
        cases hb
  -- Whoever is past the queue holds a slot, before the step and after it.
  obtain ⟨v, w, hv, hw, hsv, hsw⟩ := hserved
  exact ⟨h.served i v hv hsv, (h.step hs).served i w hw hsw⟩

end Traffic

end SqlGate
