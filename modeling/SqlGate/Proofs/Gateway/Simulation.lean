import SqlGate.Proofs.Gateway.Moves

/-!
# A gateway is traffic

What a gateway does between two things that come from outside, traffic does in many steps: the work
that is run in one go is done move by move, and calls that leave one after the other hand their
slots on one by one. So for everything that can come of a gateway there is traffic that looks like
it, with the same pool and every call where the gateway has it, and what holds of all traffic holds
of gateways too.

While the gateway lets things happen, some calls have ended whose departure it has not counted yet.
In traffic these are the ones that are about to leave.

The same induction says how each of those who wait is dealt with, in their order
(`Gateway.Motion.Attends`).
-/

namespace SqlGate

open Admission Work Relation

variable {α : Type}

def Stage.isOver : Stage α → Bool
  | .ended _ _ => true
  | .dropped => true
  | _ => false

/-- The stage of a call is seen as its phase. A call that is over is still about to leave if its
departure has not been counted. -/
inductive Stage.Shows (uncounted : Prop) : Stage α → Phase α → Prop where
  | queued : Shows uncounted .queued .queued
  | working {p : Work.Pending α} {φ : Phase α} (h : p.Shows φ) : Shows uncounted (.working p) φ
  | leaving {stage : Stage α} (h : stage.isOver = true) (hu : uncounted) :
    Shows uncounted stage .leaving
  | gone {stage : Stage α} (h : stage.isOver = true) (hu : ¬ uncounted) :
    Shows uncounted stage .gone

theorem Work.Pending.Shows.ne_leaving {p : Work.Pending α} {φ : Phase α} (h : p.Shows φ) :
    φ ≠ .leaving := by
  cases h <;> simp

theorem Stage.Shows.isOver {uncounted : Prop} {stage : Stage α}
    (h : stage.Shows uncounted .leaving) : stage.isOver = true := by
  cases h with
  | working h => exact absurd rfl h.ne_leaving
  | leaving h hu => exact h

theorem Stage.Shows.isGone {uncounted : Prop} {stage : Stage α} {φ : Phase α}
    (h : stage.Shows uncounted φ) (hover : stage.isOver = true) (hu : ¬ uncounted) :
    φ.isGone = true := by
  cases h with
  | queued => cases hover
  | working hp => cases hover
  | leaving hs hc => exact absurd hc hu
  | gone hs hc => rfl

theorem Stage.Shows.eq_queued {uncounted : Prop} {stage : Stage α} {φ : Phase α}
    (h : stage.Shows uncounted φ) (hw : φ.isWaiting = true) : stage = .queued ∧ φ = .queued := by
  cases h with
  | queued => exact ⟨rfl, rfl⟩
  | working h => cases h <;> cases hw
  | leaving h hu => cases hw
  | gone h hu => cases hw

theorem Stage.Shows.of_queued {uncounted : Prop} {φ : Phase α}
    (h : (Stage.queued : Stage α).Shows uncounted φ) : φ = .queued := by
  cases h with
  | queued => rfl
  | leaving h hu => cases h
  | gone h hu => cases h

theorem Stage.Shows.of_working {uncounted : Prop} {p : Work.Pending α} {φ : Phase α}
    (h : (Stage.working p).Shows uncounted φ) : p.Shows φ := by
  cases h with
  | working h => exact h
  | leaving h hu => cases h
  | gone h hu => cases h

/-- Traffic looks like a gateway of which some departures have not been counted. -/
structure Gateway.Shown (g : Gateway α) (uncounted : List Nat) (t : Traffic α) : Prop where
  pool : t.pool = g.pool
  length : t.visits.length = g.tasks.length
  visit : ∀ (i : Nat) (v : Visit α), t.visits[i]? = some v → ∃ task : Task α,
    g.tasks[i]? = some task ∧ v.call = task.call ∧ v.context = task.context ∧
      task.stage.Shows (i ∈ uncounted) v.phase
  nodup : uncounted.Nodup
  leaving : ∀ i ∈ uncounted, ∃ v : Visit α, t.visits[i]? = some v ∧ v.phase = .leaving

namespace Gateway

variable {comes : Call α → Prop} {g g' : Gateway α} {uncounted rest : List Nat} {t t' : Traffic α}
  {i : Nat} {v w : Visit α} {stage : Stage α} {task : Task α}

theorem getElem?_setStage (g : Gateway α) (i : Nat) (stage : Stage α) (j : Nat) :
    (g.setStage i stage).tasks[j]? =
      if j = i then (g.tasks[j]?).map fun task => { task with stage } else g.tasks[j]? := by
  rw [setStage, List.getElem?_modify]
  by_cases hj : i = j
  · rw [if_pos hj.symm]
    simp [hj]
  · rw [if_neg fun hc => hj hc.symm]
    simp [hj]

theorem setStage_self (h : g.tasks[i]? = some task) :
    (g.setStage i task.stage).tasks = g.tasks := by
  refine List.ext_getElem? fun j => ?_
  rw [getElem?_setStage]
  by_cases hj : j = i
  · rw [if_pos hj, hj, h]
    rfl
  · rw [if_neg hj]

theorem Shown.ofPool (pool : Pool) : (ofPool pool : Gateway α).Shown [] (.ofPool pool) where
  pool := rfl
  length := rfl
  visit := by simp [Traffic.ofPool]
  nodup := List.nodup_nil
  leaving := by simp

theorem Shown.exists_visit (h : g.Shown uncounted t) (htask : g.tasks[i]? = some task) :
    ∃ v : Visit α, t.visits[i]? = some v ∧ v.call = task.call ∧ v.context = task.context ∧
      task.stage.Shows (i ∈ uncounted) v.phase := by
  have hi : i < t.visits.length := h.length ▸ (List.getElem?_eq_some_iff.1 htask).1
  obtain ⟨task', htask', hv⟩ := h.visit i _ (List.getElem?_eq_getElem hi)
  obtain rfl := Option.some.inj (htask.symm.trans htask')
  exact ⟨_, List.getElem?_eq_getElem hi, hv⟩

/-- Only the pool and the tasks of a gateway are seen. -/
theorem Shown.congr (h : g.Shown uncounted t) (hp : g'.pool = g.pool) (ht : g'.tasks = g.tasks) :
    g'.Shown uncounted t where
  pool := h.pool.trans hp.symm
  length := h.length.trans (congrArg List.length ht).symm
  visit := by
    rw [ht]
    exact h.visit
  nodup := h.nodup
  leaving := h.leaving

/-- One call changes its stage and its phase alike, and the others keep theirs. -/
theorem Shown.change (h : g.Shown uncounted t) (hv : t.visits[i]? = some v)
    (hcall : w.call = v.call) (hcontext : w.context = v.context)
    (hstage : stage.Shows (i ∈ rest) w.phase) (hi : i ∈ rest → w.phase = .leaving)
    (hothers : ∀ j, j ≠ i → (j ∈ rest ↔ j ∈ uncounted)) (hnodup : rest.Nodup)
    (hpool : t'.pool = g'.pool) (hvisits : t'.visits = (t.set i w).visits)
    (htasks : g'.tasks = (g.setStage i stage).tasks) : g'.Shown rest t' where
  pool := hpool
  length := by
    rw [hvisits, htasks, Traffic.set, List.length_set, h.length]
    exact (List.length_modify _ _ _).symm
  visit := by
    intro j x hx
    rw [hvisits, Traffic.getElem?_set hv] at hx
    rw [htasks, getElem?_setStage]
    by_cases hj : j = i
    · obtain ⟨task, htask, hc, hctx, -⟩ := h.visit i v hv
      rw [if_pos hj, Option.some.injEq] at hx
      rw [if_pos hj, hj, htask, ← hx]
      exact ⟨_, rfl, hcall.trans hc, hcontext.trans hctx, hstage⟩
    · rw [if_neg hj] at hx
      rw [if_neg hj, hothers j hj]
      exact h.visit j x hx
  nodup := hnodup
  leaving := by
    intro j hj
    rw [hvisits, Traffic.getElem?_set hv]
    by_cases hji : j = i
    · rw [if_pos hji]
      exact ⟨w, rfl, hi (hji ▸ hj)⟩
    · rw [if_neg hji]
      exact h.leaving j ((hothers j hji).1 hj)

theorem Shown.not_mem (h : g.Shown uncounted t) (hv : t.visits[i]? = some v)
    (hl : v.phase ≠ .leaving) : i ∉ uncounted := by
  intro hi
  obtain ⟨v', hv', hl'⟩ := h.leaving i hi
  obtain rfl := Option.some.inj (hv.symm.trans hv')
  exact hl hl'

/-! ## Work of one call -/

theorem steps_of_moves (hv : t.visits[i]? = some v) (h : Visit.Moves v w) :
    ReflTransGen (Traffic.Step comes) t (t.set i w) := by
  induction h with
  | refl =>
      rw [Traffic.set_self hv]
  | @tail w x _ hm ih =>
      have hw : (t.set i w).visits[i]? = some w := Traffic.getElem?_set_self hv w
      exact t.set_set i w x ▸ ih.tail (.move hw hm)

def tasksOf (ds : List Departure) : List Nat := ds.map (·.task)

theorem tasksOf_schedule (d : Departure) (ds : List Departure) :
    (tasksOf (schedule d ds)).Perm (d.task :: tasksOf ds) := by
  induction ds with
  | nil => exact .refl _
  | cons d' ds ih =>
      rw [schedule]
      split
      · exact .refl _
      · exact (ih.cons d'.task).trans (.swap _ _ _)

theorem Shown.record {m : Motion α} (h : m.gateway.Shown (tasksOf m.departures) t)
    (hv : t.visits[i]? = some v) (hl : v.phase ≠ .leaving) {r : List Entry × Progress α}
    (hcall : w.call = v.call) (hcontext : w.context = v.context) (hr : r.2.Shows w.phase) :
    (m.record i r).gateway.Shown (tasksOf (m.record i r).departures) (t.set i w) := by
  have hi := h.not_mem hv hl
  obtain ⟨entries, p⟩ := r
  generalize hφ : w.phase = φ at hr
  cases hr with
  | ended time value =>
      have hperm := tasksOf_schedule ⟨time, i⟩ m.departures
      have hmem : ∀ j, j ∈ tasksOf (schedule ⟨time, i⟩ m.departures) ↔
          j = i ∨ j ∈ tasksOf m.departures := fun j => by
        rw [hperm.mem_iff, List.mem_cons]
      refine h.change hv hcall hcontext ?_ (fun _ => hφ) ?_ ?_ h.pool rfl rfl
      · rw [hφ]
        exact .leaving rfl ((hmem i).2 (.inl rfl))
      · intro j hj
        rw [Motion.record, hmem, or_iff_right hj]
      · exact hperm.nodup_iff.2 (List.nodup_cons.2 ⟨hi, h.nodup⟩)
  | waiting hp =>
      refine h.change hv hcall hcontext ?_ (fun hc => absurd hc hi) (fun j _ => Iff.rfl) h.nodup
        h.pool rfl rfl
      rw [hφ]
      exact .working hp

theorem Shown.resume {m : Motion α} (comes : Call α → Prop) (horizon : Option Instant)
    (h : m.gateway.Shown (tasksOf m.departures) t) (htask : m.gateway.tasks[i]? = some task) :
    let m' := m.resume horizon i task
    ∃ t', ReflTransGen (Traffic.Step comes) t t' ∧
      m'.gateway.Shown (tasksOf m'.departures) t' := by
  unfold Motion.resume
  split
  · rename_i p hp
    obtain ⟨v, hv, -, -, hstage⟩ := h.exists_visit htask
    rw [hp] at hstage
    have hshows := hstage.of_working
    obtain ⟨w, hm, hw⟩ := Visit.exists_moves_of_resume (m.gateway.contextOf task.context)
      task.backend horizon m.gateway.now hshows
    exact ⟨t.set i w, steps_of_moves hv hm, h.record hv hshows.ne_leaving hm.call hm.context hw⟩
  · exact ⟨t, .refl, h⟩

theorem Shown.begin {m : Motion α} (comes : Call α → Prop) (horizon : Option Instant)
    (time : Instant) (h : m.gateway.Shown (tasksOf m.departures) t)
    (hv : t.visits[i]? = some v) (hq : v.phase = .queued) (hs : i ∈ t.pool.holders) :
    let m' := m.begin horizon i time
    ∃ t', ReflTransGen (Traffic.Step comes) t t' ∧
      m'.gateway.Shown (tasksOf m'.departures) t' := by
  obtain ⟨task, htask, hcall, -, -⟩ := h.visit i v hv
  unfold Motion.begin
  rw [htask]
  dsimp only
  rw [← hcall]
  let v' : Visit α := { v with phase := .working v.call.work }
  obtain ⟨w, hm, hw⟩ := Visit.exists_moves_of_run (m.gateway.contextOf task.context) task.backend
    horizon v.call.work time (v := v') rfl
  have hv' : (t.set i v').visits[i]? = some v' := Traffic.getElem?_set_self hv v'
  have hmoves : ReflTransGen (Traffic.Step comes) (t.set i v') (t.set i w) :=
    t.set_set i v' w ▸ steps_of_moves hv' hm
  exact ⟨t.set i w, .head (.begin hv hq hs) hmoves,
    h.record hv (by simp [hq]) hm.call hm.context hw⟩

/-! ## Leaving and serving -/

/-- A call that is over, and that nobody has to count any more, is gone. -/
theorem Shown.goes (h : g.Shown uncounted t) (hv : t.visits[i]? = some v)
    (hstage : stage.Shows (i ∈ rest) .gone) (hi : i ∉ rest)
    (hothers : ∀ j, j ≠ i → (j ∈ rest ↔ j ∈ uncounted)) (hnodup : rest.Nodup)
    (hpool : g'.pool = g.pool.leave i) (htasks : g'.tasks = (g.setStage i stage).tasks) :
    g'.Shown rest (t.release i v) := by
  refine h.change (w := { v with phase := .gone }) hv rfl rfl hstage (fun hc => absurd hc hi)
    hothers hnodup ?_ rfl htasks
  rw [Traffic.pool_release, h.pool, hpool]

theorem Shown.leave (comes : Call α → Prop) (h : g.Shown (i :: rest) t) :
    ∃ t', Traffic.Step comes t t' ∧ Shown { g with pool := g.pool.leave i } rest t' := by
  obtain ⟨v, hv, hl⟩ := h.leaving i List.mem_cons_self
  obtain ⟨task, htask, -, -, hstage⟩ := h.visit i v hv
  obtain ⟨hi, hnodup⟩ := List.nodup_cons.1 h.nodup
  rw [hl] at hstage
  refine ⟨_, .leave hv hl, h.goes hv (.gone hstage.isOver hi) hi ?_ hnodup rfl
    (setStage_self htask).symm⟩
  intro j hj
  rw [List.mem_cons, or_iff_right hj]

theorem Shown.leaveAll (comes : Call α → Prop) (ds : List Departure) {m : Motion α}
    (h : m.gateway.Shown (tasksOf ds) t) :
    ∃ t', ReflTransGen (Traffic.Step comes) t t' ∧
      (ds.foldl Motion.leave m).gateway.Shown [] t' := by
  induction ds generalizing m t with
  | nil => exact ⟨t, .refl, h⟩
  | cons d ds ih =>
      obtain ⟨t₁, hstep, h₁⟩ := h.leave comes
      obtain ⟨t₂, hsteps, h₂⟩ := ih (m := m.leave d) h₁
      exact ⟨t₂, .head hstep hsteps, h₂⟩

/-- A call that has waited in vain gives up once its context is over. -/
theorem Shown.giveUp {m : Motion α} (comes : Call α → Prop) (time : Instant)
    (h : m.gateway.Shown uncounted t) (hv : t.visits[i]? = some v) (hq : v.phase = .queued)
    (hs : i ∉ t.pool.holders) :
    ∃ t', ReflTransGen (Traffic.Step comes) t t' ∧
      (m.giveUp i time).gateway.Shown uncounted t' := by
  obtain ⟨task, htask, -, -, -⟩ := h.visit i v hv
  have hi : i ∉ uncounted := h.not_mem hv (by simp [hq])
  let t₁ : Traffic α := { t with expired := v.context :: t.expired }
  have h₁ : m.gateway.Shown uncounted t₁ := ⟨h.pool, h.length, h.visit, h.nodup, h.leaving⟩
  let w : Visit α := { v with phase := .resigned }
  have hw : (t₁.set i w).visits[i]? = some w := Traffic.getElem?_set_self (t := t₁) hv w
  have hresign : Traffic.Step comes t₁ (t₁.set i w) := .resign hv hq hs List.mem_cons_self
  have hquit : Traffic.Step comes (t₁.set i w) (t₁.release i v) := by
    rw [← t₁.release_set i v .resigned]
    exact .quit hw rfl
  refine ⟨t₁.release i v, .head (.expire v.context) (.head hresign (.single hquit)), ?_⟩
  unfold Motion.giveUp
  rw [htask]
  exact h₁.goes hv (.gone rfl hi) hi (fun j _ => Iff.rfl) h.nodup rfl rfl

@[simp] theorem pool_record (m : Motion α) (i : Nat) (r : List Entry × Progress α) :
    (m.record i r).gateway.pool = m.gateway.pool := by
  unfold Motion.record
  split <;> rfl

@[simp] theorem pool_begin (horizon : Option Instant) (m : Motion α) (i : Nat) (time : Instant) :
    (m.begin horizon i time).gateway.pool = m.gateway.pool := by
  unfold Motion.begin
  split
  · exact pool_record _ _ _
  · rfl

theorem pool_resume (horizon : Option Instant) (m : Motion α) (i : Nat) (task : Task α) :
    (m.resume horizon i task).gateway.pool = m.gateway.pool := by
  unfold Motion.resume
  split
  · exact pool_record _ _ _
  · rfl

theorem drop_tasks_record (m : Motion α) (i : Nat) (r : List Entry × Progress α) :
    (m.record i r).gateway.tasks.drop (i + 1) = m.gateway.tasks.drop (i + 1) := by
  have hset : ∀ stage, (m.gateway.setStage i stage).tasks.drop (i + 1) =
      m.gateway.tasks.drop (i + 1) := by
    intro stage
    refine List.ext_getElem? fun j => ?_
    rw [List.getElem?_drop, List.getElem?_drop, getElem?_setStage, if_neg (by omega)]
  unfold Motion.record
  split
  · exact hset _
  · exact hset _

theorem drop_tasks_resume (horizon : Option Instant) (m : Motion α) (i : Nat) (task : Task α) :
    (m.resume horizon i task).gateway.tasks.drop (i + 1) = m.gateway.tasks.drop (i + 1) := by
  unfold Motion.resume
  split
  · exact drop_tasks_record _ _ _
  · rfl

theorem departures_giveUp (m : Motion α) (i : Nat) (time : Instant) :
    (m.giveUp i time).departures = m.departures := by
  unfold Motion.giveUp
  split <;> rfl

theorem pool_giveUp {m : Motion α} (time : Instant) (htask : m.gateway.tasks[i]? = some task) :
    (m.giveUp i time).gateway.pool = m.gateway.pool.leave i := by
  unfold Motion.giveUp
  rw [htask]
  rfl

/-- Those who wait are attended to in their order. Whoever is refused finds no slot free, his context
is over by then, and it ended before the next slot came back. Whoever is admitted is handed a slot
that comes back. Whoever goes on waiting does so in a context that does not end by the horizon, when
no more slots come back. -/
inductive Motion.Attends (horizon : Option Instant) : Motion α → List Nat → Motion α → Prop where
  | nobody (m : Motion α) :
    Attends horizon m [] (m.departures.foldl Motion.leave { m with departures := [] })
  | refuses {m m' : Motion α} {i : Nat} {rest : List Nat} {e time : Instant}
    (hfree : m.gateway.available = 0) (hs : i ∉ m.gateway.pool.holders)
    (hend : m.endOf i = some e) (hle : e ≤ time) (hnext : ∀ d ∈ m.departures.head?, e < d.time)
    (h : Attends horizon (m.giveUp i time) rest m') : Attends horizon m (i :: rest) m'
  | admits {m m' : Motion α} {i : Nat} {rest : List Nat} {d : Departure} {ds : List Departure}
    (hd : m.departures = d :: ds)
    (hs : i ∈ (Motion.leave { m with departures := ds } d).gateway.pool.holders)
    (h : Attends horizon
      ((Motion.leave { m with departures := ds } d).begin horizon i d.time) rest m') :
    Attends horizon m (i :: rest) m'
  | waits {m m' : Motion α} {i : Nat} {rest : List Nat} (hd : m.departures = [])
    (hend : ∀ e, m.endOf i = some e → Clock.isWithin horizon e = false)
    (h : Attends horizon m rest m') : Attends horizon m (i :: rest) m'

/-- A departure hands its slot to the first in the queue, who begins. -/
theorem Shown.hand {m : Motion α} {rest : List Nat} {d : Departure} {ds : List Departure}
    (comes : Call α → Prop) (horizon : Option Instant) (hsound : t.Sound)
    (h : m.gateway.Shown (tasksOf (d :: ds)) t) (hqueue : i :: rest = m.gateway.pool.queue)
    (htask : m.gateway.tasks[i]? = some task) (hqueued : task.stage = .queued) :
    let m₁ := Motion.leave { m with departures := ds } d
    let m₂ := m₁.begin horizon i d.time
    (∃ t', ReflTransGen (Traffic.Step comes) t t' ∧
      m₂.gateway.Shown (tasksOf m₂.departures) t') ∧
      i ∈ m₁.gateway.pool.holders ∧ rest = m₂.gateway.pool.queue := by
  intro m₁ m₂
  obtain ⟨u, hu, hleaving⟩ := h.leaving d.task List.mem_cons_self
  have hheld : d.task ∈ m.gateway.pool.holders :=
    h.pool ▸ hsound.served _ u hu (by rw [hleaving]; rfl)
  have hpool : m.gateway.pool.leave d.task = { m.gateway.pool with
      holders := m.gateway.pool.holders.erase d.task ++ [i], queue := rest } :=
    Pool.leave_of_mem_cons hheld hqueue.symm
  have hi : i ∈ m₁.gateway.pool.holders := by
    change i ∈ (m.gateway.pool.leave d.task).holders
    rw [hpool]
    exact List.mem_append_right _ List.mem_cons_self
  obtain ⟨t₁, hstep, h₁⟩ := Shown.leave comes h
  obtain ⟨v, hv, -, -, hstage⟩ := h₁.exists_visit htask
  rw [hqueued] at hstage
  obtain ⟨t₂, hsteps, h₂⟩ := Shown.begin (m := m₁) comes horizon d.time h₁ hv hstage.of_queued
    (h₁.pool ▸ hi)
  refine ⟨⟨t₂, .head hstep hsteps, h₂⟩, hi, ?_⟩
  rw [pool_begin]
  exact (congrArg Pool.queue hpool).symm

/-- Those who wait are served. As long as there are departures to be counted, those who are still to
be served are all who wait: so the slot of the next departure is handed to the next of them. -/
theorem Shown.serve (comes : Call α → Prop) (horizon : Option Instant) (queue : List Nat)
    {m : Motion α} (hsound : t.Sound) (h : m.gateway.Shown (tasksOf m.departures) t)
    (hqueue : queue.Sublist m.gateway.pool.queue)
    (hall : m.departures ≠ [] → queue = m.gateway.pool.queue) :
    (∃ t', ReflTransGen (Traffic.Step comes) t t' ∧
      (m.serve horizon queue).gateway.Shown [] t') ∧
      Motion.Attends horizon m queue (m.serve horizon queue) := by
  induction queue generalizing m t with
  -- Nobody is left to whom a slot could be handed.
  | nil => exact ⟨h.leaveAll comes m.departures (m := { m with departures := [] }), .nobody m⟩
  | cons i rest ih =>
      obtain ⟨v, hv, hw, hs⟩ := hsound.exists_waiting (h.pool ▸ hqueue.subset List.mem_cons_self)
      obtain ⟨task, htask, -, -, hstage⟩ := h.visit i v hv
      obtain ⟨hqueued, hq⟩ := hstage.eq_queued hw
      have hfree : m.gateway.available = 0 := by
        have hvalid : m.gateway.pool.Valid := h.pool ▸ hsound.valid
        exact hvalid.idle (List.ne_nil_of_mem (hqueue.subset List.mem_cons_self))
      have hgive : ∀ time e, m.endOf i = some e → e ≤ time →
          (∀ d ∈ m.departures.head?, e < d.time) →
          (∃ t', ReflTransGen (Traffic.Step comes) t t' ∧
            ((m.giveUp i time).serve horizon rest).gateway.Shown [] t') ∧
          Motion.Attends horizon m (i :: rest) ((m.giveUp i time).serve horizon rest) := by
        intro time e hend hle hnext
        obtain ⟨t₁, hsteps₁, h₁⟩ := h.giveUp comes time hv hq hs
        have hpool : (m.giveUp i time).gateway.pool.queue = m.gateway.pool.queue.erase i := by
          rw [pool_giveUp time htask, Pool.leave_of_not_mem (h.pool ▸ hs)]
        have hrest : rest = (i :: rest).erase i := (List.erase_cons_head i rest).symm
        obtain ⟨⟨t₂, hsteps₂, h₂⟩, hattends⟩ := ih (m := m.giveUp i time) (hsound.steps hsteps₁)
          (departures_giveUp m i time ▸ h₁) (by rw [hpool, hrest]; exact hqueue.erase i)
          (fun hd => by rw [hpool, hrest, hall (departures_giveUp m i time ▸ hd)])
        exact ⟨⟨t₂, hsteps₁.trans hsteps₂, h₂⟩,
          .refuses hfree (h.pool ▸ hs) hend hle hnext hattends⟩
      unfold Motion.serve
      split
      · rename_i d ds hds
        split
        · rename_i hlate
          obtain ⟨e, hend, hlt⟩ := (Option.any_eq_true _ _).1 hlate
          rw [hend]
          exact hgive _ e hend (le_max_right _ e) fun d' hd' => by
            rw [hds] at hd'
            exact Option.some.inj hd' ▸ of_decide_eq_true hlt
        -- The departure hands its slot to `i`, who is the first in the queue.
        · rw [hds] at h hall
          obtain ⟨⟨t₁, hsteps₁, h₁⟩, hi, hrest⟩ := h.hand comes horizon hsound
            (hall (List.cons_ne_nil d ds)) htask hqueued
          obtain ⟨⟨t₂, hsteps₂, h₂⟩, hattends⟩ := ih (hsound.steps hsteps₁) h₁
            (hrest ▸ List.Sublist.refl rest) fun _ => hrest
          exact ⟨⟨t₂, hsteps₁.trans hsteps₂, h₂⟩, .admits hds hi hattends⟩
      -- Nobody departs, so `i` gives up or goes on waiting.
      · rename_i hds
        split
        · rename_i e he
          exact hgive _ e (Option.filter_eq_some_iff.1 he).1 (le_max_right _ e) (by simp [hds])
        · rename_i he
          obtain ⟨hsteps, hattends⟩ :=
            ih hsound h (List.sublist_of_cons_sublist hqueue) fun hd => absurd hds hd
          refine ⟨hsteps, .waits hds (fun e hend => ?_) hattends⟩
          simpa using Option.filter_eq_none_iff.1 he e hend

theorem Shown.resumeAll (comes : Call α → Prop) (horizon : Option Instant) (tasks : List (Task α))
    (k : Nat) {m : Motion α} (h : m.gateway.Shown (tasksOf m.departures) t)
    (htasks : m.gateway.tasks.drop k = tasks) :
    let m' := (tasks.zipIdx k).foldl (fun m (task, i) => m.resume horizon i task) m
    ∃ t', ReflTransGen (Traffic.Step comes) t t' ∧
      m'.gateway.Shown (tasksOf m'.departures) t' ∧ m'.gateway.pool = m.gateway.pool := by
  induction tasks generalizing k m t with
  | nil => exact ⟨t, .refl, h, rfl⟩
  | cons task tasks ih =>
      have htask : m.gateway.tasks[k]? = some task := by
        rw [← List.head?_drop, htasks, List.head?_cons]
      obtain ⟨t₁, hsteps₁, h₁⟩ := h.resume comes horizon htask
      have hrest : (m.resume horizon k task).gateway.tasks.drop (k + 1) = tasks := by
        rw [drop_tasks_resume, ← List.tail_drop, htasks, List.tail_cons]
      obtain ⟨t₂, hsteps₂, h₂, hpool⟩ := ih (k + 1) h₁ hrest
      exact ⟨t₂, hsteps₁.trans hsteps₂, h₂, hpool.trans (pool_resume horizon m k task)⟩

/-- All that were at work have gone on to a horizon, and nobody who waits has been served. -/
def moved (g : Gateway α) (horizon : Option Instant) : Motion α :=
  g.tasks.zipIdx.foldl (fun m (t, i) => m.resume horizon i t) (.still g)

theorem Shown.advance (comes : Call α → Prop) (horizon : Option Instant) (hsound : t.Sound)
    (h : g.Shown [] t) :
    (∃ t', ReflTransGen (Traffic.Step comes) t t' ∧ (g.advance horizon).Shown [] t') ∧
      Motion.Attends horizon (g.moved horizon) g.pool.queue
        ((g.moved horizon).serve horizon g.pool.queue) := by
  obtain ⟨t₁, hsteps₁, h₁, hpool⟩ :=
    Shown.resumeAll (m := .still g) comes horizon g.tasks 0 h List.drop_zero
  obtain ⟨⟨t₂, hsteps₂, h₂⟩, hattends⟩ := Shown.serve (m := g.moved horizon) comes horizon
    g.pool.queue (hsound.steps hsteps₁) h₁ (hpool ▸ List.Sublist.refl g.pool.queue)
    fun _ => (congrArg Pool.queue hpool).symm
  exact ⟨⟨t₂, hsteps₁.trans hsteps₂, h₂.congr rfl rfl⟩, hattends⟩

/-! ## What comes from outside -/

/-- What may come to a gateway, if only certain calls do. A context is cancelled by revoking it and
letting happen what then can. -/
inductive Change (comes : Call α → Prop) : Gateway α → Gateway α → Prop where
  | addContext {g : Gateway α} (c : Context) : Change comes g (g.addContext c)
  | start {g : Gateway α} (context : Nat) {call : Call α} (backend : Backend) (h : comes call) :
    Change comes g (g.start context call backend)
  | revoke {g : Gateway α} (context : Nat) : Change comes g (g.revoke context)
  | settle {g : Gateway α} : Change comes g g.settle
  | drop {g : Gateway α} (i : Nat) : Change comes g (g.drop i)
  | pass {g : Gateway α} (millis : Nat) : Change comes g (g.pass millis)
  | finish {g : Gateway α} : Change comes g g.finish

abbrev Reachable (comes : Call α → Prop) (pool : Pool) (g : Gateway α) : Prop :=
  ReflTransGen (Change comes) (Gateway.ofPool pool) g

theorem Shown.start (context : Nat) {call : Call α} (backend : Backend) (hcomes : comes call)
    (hsound : t.Sound) (h : g.Shown [] t) :
    ∃ t', ReflTransGen (Traffic.Step comes) t t' ∧ (g.start context call backend).Shown [] t' := by
  let t₁ : Traffic α := { t with
    pool := t.pool.acquire t.visits.length
    visits := t.visits ++ [.fresh call context] }
  let g₁ : Gateway α := { g with
    tasks := g.tasks ++ [⟨call, context, backend, .queued⟩]
    pool := g.pool.acquire g.tasks.length }
  have hstep : Traffic.Step comes t t₁ := .start context hcomes
  have hvisit : t₁.visits[g.tasks.length]? = some (.fresh call context) := by
    rw [← h.length]
    exact List.getElem?_concat_length
  have h₁ : g₁.Shown [] t₁ := by
    refine ⟨?_, ?_, ?_, List.nodup_nil, by simp⟩
    · change t.pool.acquire t.visits.length = _
      rw [h.pool, h.length]
    · change (t.visits ++ _).length = (g.tasks ++ _).length
      rw [List.length_append, List.length_append, h.length]
      rfl
    · intro j x hx
      change (t.visits ++ _)[j]? = some x at hx
      change ∃ task, (g.tasks ++ _)[j]? = some task ∧ _
      rw [List.getElem?_append] at hx ⊢
      by_cases hj : j < t.visits.length
      · rw [if_pos hj] at hx
        rw [if_pos (h.length ▸ hj)]
        exact h.visit j x hx
      · rw [if_neg hj] at hx
        rw [if_neg (h.length ▸ hj)]
        have hzero : j - g.tasks.length = 0 := by
          have hlt := (List.getElem?_eq_some_iff.1 hx).1
          rw [List.length_singleton, h.length] at hlt
          omega
        rw [h.length, hzero] at hx
        obtain rfl := Option.some.inj hx
        rw [hzero]
        exact ⟨_, rfl, rfl, rfl, .queued⟩
  unfold Gateway.start
  dsimp only
  split
  · rename_i hheld
    have hs : g.tasks.length ∈ t₁.pool.holders := by
      rw [h₁.pool]
      exact List.contains_iff_mem.1 hheld
    obtain ⟨t₂, hsteps₂, h₂⟩ :=
      Shown.begin (m := .still g₁) comes (some g.now) g.now h₁ hvisit rfl hs
    obtain ⟨t₃, hsteps₃, h₃⟩ := h₂.leaveAll comes _
    exact ⟨t₃, .head hstep (hsteps₂.trans hsteps₃), h₃.congr rfl rfl⟩
  · obtain ⟨⟨t₂, hsteps₂, h₂⟩, -⟩ := h₁.advance comes (some g.now) (hsound.step hstep)
    exact ⟨t₂, .head hstep hsteps₂, h₂⟩

/-- A call at work has been dropped, and nobody who waits has been served. -/
def dismissed (g : Gateway α) (i : Nat) : Motion α := ⟨g.setStage i .dropped, [], [⟨g.now, i⟩]⟩

theorem Shown.drop (comes : Call α → Prop) (i : Nat) (hsound : t.Sound) (h : g.Shown [] t) :
    (∃ t', ReflTransGen (Traffic.Step comes) t t' ∧ (g.drop i).Shown [] t') ∧
      ∀ p, g.stage? i = some (.working p) →
        Motion.Attends (some g.now) (g.dismissed i) g.pool.queue
          ((g.dismissed i).serve (some g.now) g.pool.queue) := by
  unfold Gateway.drop
  split
  · rename_i hstage
    obtain ⟨task, htask, hqueued⟩ := Option.map_eq_some_iff.1 hstage
    obtain ⟨v, hv, -, -, hshows⟩ := h.exists_visit htask
    rw [hqueued] at hshows
    have hw : v.phase.isWaiting = true := by
      rw [hshows.of_queued]
      rfl
    refine ⟨⟨t.release i v, .single (.quit hv hw), h.goes hv (.gone rfl List.not_mem_nil)
      List.not_mem_nil (fun _ _ => Iff.rfl) List.nodup_nil rfl rfl⟩, fun p hp => ?_⟩
    cases hstage.symm.trans hp
  · rename_i p hstage
    obtain ⟨task, htask, hworking⟩ := Option.map_eq_some_iff.1 hstage
    obtain ⟨v, hv, -, -, hshows⟩ := h.exists_visit htask
    rw [hworking] at hshows
    obtain ⟨w, hm, hw⟩ := Visit.exists_move_leaving hshows.of_working
    have hstep : Traffic.Step comes t (t.set i w) := .move hv hm
    have h₁ : (g.setStage i .dropped).Shown [i] (t.set i w) := by
      refine h.change hv hm.call hm.context ?_ (fun _ => hw) ?_ (List.nodup_singleton i) h.pool rfl
        rfl
      · rw [hw]
        exact .leaving rfl List.mem_cons_self
      · intro j hj
        simp [hj]
    obtain ⟨⟨t₂, hsteps₂, h₂⟩, hattends⟩ := Shown.serve (m := g.dismissed i) comes (some g.now)
      g.pool.queue (hsound.step hstep) h₁ (List.Sublist.refl _) fun _ => rfl
    exact ⟨⟨t₂, .head hstep hsteps₂, h₂.congr rfl rfl⟩, fun _ _ => hattends⟩
  · rename_i hstage
    exact ⟨⟨t, .refl, h⟩, fun p hp => absurd hp (hstage p)⟩

theorem Shown.change_step (hsound : t.Sound) (h : g.Shown [] t) (hc : Change comes g g') :
    ∃ t', ReflTransGen (Traffic.Step comes) t t' ∧ g'.Shown [] t' := by
  cases hc with
  | addContext c => exact ⟨t, .refl, h.congr rfl rfl⟩
  | start context backend hcomes => exact h.start context backend hcomes hsound
  | revoke context => exact ⟨t, .refl, h.congr rfl rfl⟩
  | settle => exact (h.advance comes _ hsound).1
  | drop i => exact (h.drop comes i hsound).1
  | pass millis =>
      obtain ⟨⟨t', hsteps, h'⟩, -⟩ := h.advance comes (some (g.now + millis)) hsound
      exact ⟨t', hsteps, h'.congr rfl rfl⟩
  | finish =>
      obtain ⟨⟨t', hsteps, h'⟩, -⟩ := h.advance comes none hsound
      exact ⟨t', hsteps, h'.congr rfl rfl⟩

/-- Whatever comes of a gateway can come of traffic at the same pool. -/
theorem Reachable.exists_shown {pool : Pool} (hp : pool.Valid) (hl : pool.line = [])
    (h : Reachable comes pool g) : ∃ t, Traffic.Reachable comes pool t ∧ g.Shown [] t := by
  induction h with
  | refl => exact ⟨_, .refl, .ofPool pool⟩
  | tail _ hc ih =>
      obtain ⟨t, ht, hshown⟩ := ih
      obtain ⟨t', hsteps, hshown'⟩ := hshown.change_step (ht.sound hp hl) hc
      exact ⟨t', ht.trans hsteps, hshown'⟩

end Gateway

end SqlGate
