import SqlGate.Proofs.Gateway.Apart

/-!
# What becomes of each call

When a gateway lets things happen, first every call that is at work goes on (`Task.resumed`). Then
those who wait are served, and each of them begins, gives up or goes on waiting (`Gateway.Served`).
Nothing else is done to any call, and nothing to the contexts.

So what holds of the work of a call wherever it waits is settled by how work begins and goes on
(`AtWork.advance`, `Reachable.atWork`).
-/

namespace SqlGate

open Admission Work

variable {α : Type}

namespace Task

variable {c : Context} {horizon : Option Instant} {t : Task α} {stage : Stage α}

/-- A call that goes on to a horizon, if it is at work. -/
def resumed (c : Context) (horizon : Option Instant) (now : Instant) (t : Task α) : Task α :=
  match t.stage with
  | .working p => { t with stage := stageOf (p.resume c t.backend horizon now).2 }
  | _ => t

/-- The stages to which serving those who wait may bring a call. -/
inductive Served (c : Context) (horizon : Option Instant) (t : Task α) : Stage α → Prop where
  | stays : Served c horizon t t.stage
  | begins (time : Instant) :
    Served c horizon t (stageOf (run c t.backend horizon t.call.work time).2)
  | givesUp (time : Instant) : Served c horizon t (.ended time (some t.call.exhausted))

theorem resumed_of_working {p : Pending α} (now : Instant) (h : t.stage = .working p) :
    t.resumed c horizon now = { t with stage := stageOf (p.resume c t.backend horizon now).2 } := by
  unfold resumed
  rw [h]

theorem resumed_of_not_working (now : Instant) (h : ∀ p, t.stage ≠ .working p) :
    t.resumed c horizon now = t := by
  unfold resumed
  split
  · next p hp => exact absurd hp (h p)
  · rfl

@[simp] theorem call_resumed (c : Context) (horizon : Option Instant) (now : Instant) (t : Task α) :
    (t.resumed c horizon now).call = t.call := by
  unfold resumed
  split <;> rfl

@[simp] theorem context_resumed (c : Context) (horizon : Option Instant) (now : Instant)
    (t : Task α) : (t.resumed c horizon now).context = t.context := by
  unfold resumed
  split <;> rfl

@[simp] theorem backend_resumed (c : Context) (horizon : Option Instant) (now : Instant)
    (t : Task α) : (t.resumed c horizon now).backend = t.backend := by
  unfold resumed
  split <;> rfl

theorem stageOf_cases (r : Progress α) : (∃ time v, stageOf r = .ended time v) ∨
    ∃ p, stageOf r = .working p ∧ r = .waiting p := by
  cases r with
  | ended time v => exact .inl ⟨time, v, rfl⟩
  | waiting p => exact .inr ⟨p, rfl, rfl⟩

theorem stageOf_eq_working {r : Progress α} {p : Pending α} (h : stageOf r = .working p) :
    r = .waiting p := by
  cases r with
  | ended e v => cases h
  | waiting q =>
      cases h
      rfl

end Task

namespace Gateway

variable {horizon : Option Instant} {g g' g'' : Gateway α} {m : Motion α} {i : Nat} {time : Instant}

theorem contextOf_congr (h : g'.contexts = g.contexts) (n : Nat) :
    g'.contextOf n = g.contextOf n := by
  rw [contextOf, contextOf, h]

/-! ## Those who wait are served -/

/-- Of one gateway came another one by serving those who wait. -/
structure Served (horizon : Option Instant) (g g' : Gateway α) : Prop where
  now : g'.now = g.now
  contexts : g'.contexts = g.contexts
  length : g'.tasks.length = g.tasks.length
  task : ∀ (i : Nat) (t : Task α), g.tasks[i]? = some t → ∃ stage : Stage α,
    g'.tasks[i]? = some { t with stage } ∧ t.Served (g.contextOf t.context) horizon stage

namespace Served

theorem refl (horizon : Option Instant) (g : Gateway α) : Served horizon g g :=
  ⟨rfl, rfl, rfl, fun _ t ht => ⟨t.stage, ht, .stays⟩⟩

/-- Only the clock, the contexts and the calls are looked at. -/
theorem congr (h : Served horizon g g') (hnow : g''.now = g'.now)
    (hcontexts : g''.contexts = g'.contexts) (htasks : g''.tasks = g'.tasks) :
    Served horizon g g'' where
  now := hnow.trans h.now
  contexts := hcontexts.trans h.contexts
  length := htasks ▸ h.length
  task := htasks ▸ h.task

theorem exists_task (h : Served horizon g g') {t' : Task α} (ht' : g'.tasks[i]? = some t') :
    ∃ t, g.tasks[i]? = some t ∧ t'.call = t.call ∧ t'.context = t.context ∧
      t'.backend = t.backend ∧ t.Served (g.contextOf t.context) horizon t'.stage := by
  have hi : i < g.tasks.length := h.length ▸ (List.getElem?_eq_some_iff.1 ht').1
  obtain ⟨stage, hstage, hserved⟩ := h.task i _ (List.getElem?_eq_getElem hi)
  obtain rfl := Option.some.inj (ht'.symm.trans hstage)
  exact ⟨_, List.getElem?_eq_getElem hi, rfl, rfl, rfl, hserved⟩

/-- The stage of a call is set to one that it may be brought to. -/
theorem setStage (h : Served horizon g g') {stage : Stage α}
    (hstage : ∀ t, g.tasks[i]? = some t → t.Served (g.contextOf t.context) horizon stage) :
    Served horizon g (g'.setStage i stage) where
  now := h.now
  contexts := h.contexts
  length := by
    rw [Gateway.setStage, List.length_modify]
    exact h.length
  task j t ht := by
    obtain ⟨old, hold, hserved⟩ := h.task j t ht
    rw [getElem?_setStage, hold]
    by_cases hj : j = i
    · subst hj
      exact ⟨stage, if_pos rfl, hstage t ht⟩
    · exact ⟨old, if_neg hj, hserved⟩

theorem begin (h : Served horizon g m.gateway) (i : Nat) (time : Instant) :
    Served horizon g (m.begin horizon i time).gateway := by
  unfold Motion.begin
  split
  · rename_i t' ht'
    obtain ⟨t, ht, hcall, hcontext, hbackend, -⟩ := h.exists_task ht'
    rw [gateway_record, contextOf_congr h.contexts, hcall, hcontext, hbackend]
    refine h.setStage fun u hu => ?_
    obtain rfl := Option.some.inj (ht.symm.trans hu)
    exact .begins time
  · exact h

theorem giveUp (h : Served horizon g m.gateway) (i : Nat) (time : Instant) :
    Served horizon g (m.giveUp i time).gateway := by
  unfold Motion.giveUp
  split
  · rename_i t' ht'
    obtain ⟨t, ht, hcall, -, -, -⟩ := h.exists_task ht'
    have hset : Served horizon g
        (m.gateway.setStage i (.ended time (some t'.call.exhausted))) := by
      refine h.setStage fun u hu => ?_
      obtain rfl := Option.some.inj (ht.symm.trans hu)
      exact hcall ▸ .givesUp time
    exact hset.congr rfl rfl rfl
  · exact h

theorem leaveAll (ds : List Departure) (h : Served horizon g m.gateway) :
    Served horizon g (ds.foldl Motion.leave m).gateway := by
  induction ds generalizing m with
  | nil => exact h
  | cons d ds ih => exact ih (m := m.leave d) (h.congr rfl rfl rfl)

theorem serve (queue : List Nat) (h : Served horizon g m.gateway) :
    Served horizon g (m.serve horizon queue).gateway := by
  induction queue generalizing m with
  | nil =>
      unfold Motion.serve
      exact leaveAll (m := { m with departures := [] }) m.departures h
  | cons i rest ih =>
      unfold Motion.serve
      split
      · rename_i d ds _
        split
        · exact ih (h.giveUp i _)
        · refine ih (begin (m := Motion.leave { m with departures := ds } d) ?_ i d.time)
          exact h.congr rfl rfl rfl
      · split
        · exact ih (h.giveUp i _)
        · exact ih h

end Served

/-! ## Those who are at work go on -/

/-- All calls that are at work go on to a horizon. -/
def resumed (g : Gateway α) (horizon : Option Instant) : Gateway α :=
  { g with tasks := g.tasks.map fun t => t.resumed (g.contextOf t.context) horizon g.now }

theorem resume_eq (horizon : Option Instant) {t : Task α} (ht : m.gateway.tasks[i]? = some t) :
    Same m.gateway (m.resume horizon i t).gateway ∧ ∀ j,
      (m.resume horizon i t).gateway.tasks[j]? =
        if j = i then some (t.resumed (m.gateway.contextOf t.context) horizon m.gateway.now)
        else m.gateway.tasks[j]? := by
  unfold Motion.resume
  split
  · rename_i p hp
    refine ⟨same_record _ _ _, fun j => ?_⟩
    rw [gateway_record, getElem?_setStage, Task.resumed_of_working _ hp]
    by_cases hj : j = i
    · rw [if_pos hj, if_pos hj, hj, ht]
      rfl
    · rw [if_neg hj, if_neg hj]
  · rename_i hp
    refine ⟨.refl _, fun j => ?_⟩
    rw [Task.resumed_of_not_working _ hp]
    by_cases hj : j = i
    · rw [if_pos hj, hj, ht]
    · rw [if_neg hj]

/-- The calls from some place on go on, one after the other. -/
theorem resumeAll_eq (horizon : Option Instant) (tasks : List (Task α)) (k : Nat) {m : Motion α}
    (htasks : m.gateway.tasks.drop k = tasks) :
    let m' := (tasks.zipIdx k).foldl (fun m (t, i) => m.resume horizon i t) m
    Same m.gateway m'.gateway ∧ ∀ j, m'.gateway.tasks[j]? =
      if j < k then m.gateway.tasks[j]? else m.gateway.tasks[j]?.map fun t =>
        t.resumed (m.gateway.contextOf t.context) horizon m.gateway.now := by
  induction tasks generalizing k m with
  | nil =>
      refine ⟨.refl _, fun j => ?_⟩
      split_ifs with hj
      · rfl
      · have hlen := List.drop_eq_nil_iff.1 htasks
        change m.gateway.tasks[j]? = _
        rw [List.getElem?_eq_none (hlen.trans (Nat.le_of_not_lt hj))]
        rfl
  | cons task tasks ih =>
      have htask : m.gateway.tasks[k]? = some task := by
        rw [← List.head?_drop, htasks, List.head?_cons]
      obtain ⟨hsame, hresume⟩ := resume_eq horizon htask
      have hrest : (m.resume horizon k task).gateway.tasks.drop (k + 1) = tasks := by
        rw [drop_tasks_resume, ← List.tail_drop, htasks, List.tail_cons]
      obtain ⟨hsame', hall⟩ := ih (k + 1) hrest
      refine ⟨hsame.trans hsame', fun j => (hall j).trans ?_⟩
      simp only [hresume, hsame.now, contextOf_congr hsame.contexts]
      rcases Nat.lt_trichotomy j k with hj | rfl | hj
      · rw [if_pos (Nat.lt_succ_of_lt hj), if_pos hj, if_neg (Nat.ne_of_lt hj)]
      · rw [if_pos (Nat.lt_succ_self j), if_pos rfl, if_neg (Nat.lt_irrefl j), htask]
        rfl
      · rw [if_neg (by omega), if_neg (by omega), if_neg (by omega)]

/-- Those who are at work go on, and then those who wait are served. -/
theorem served_advance (horizon : Option Instant) (g : Gateway α) :
    Served horizon (g.resumed horizon) (g.advance horizon) := by
  obtain ⟨hsame, hall⟩ := resumeAll_eq horizon g.tasks 0 (m := .still g) List.drop_zero
  have hresumed := (Served.refl horizon (g.resumed horizon)).congr hsame.now hsame.contexts
    (List.ext_getElem? fun j => by
      rw [hall j, if_neg (Nat.not_lt_zero j), resumed, List.getElem?_map]
      rfl)
  exact (hresumed.serve g.pool.queue).congr rfl rfl rfl

/-! ## What comes from outside -/

/-- A call has come, and nothing is done of it yet. -/
def enter (g : Gateway α) (context : Nat) (call : Call α) (backend : Backend) : Gateway α :=
  { g with
    tasks := g.tasks ++ [⟨call, context, backend, .queued⟩]
    pool := g.pool.acquire g.tasks.length }

theorem start_cases (g : Gateway α) (context : Nat) (call : Call α) (backend : Backend) :
    Served (some g.now) (g.enter context call backend) (g.start context call backend) ∨
      g.start context call backend = (g.enter context call backend).settle := by
  unfold start
  dsimp only
  split
  · left
    let g₁ := g.enter context call backend
    have hbegun := (Served.refl (some g.now) g₁).begin (m := .still g₁) g.tasks.length g.now
    exact (hbegun.leaveAll _).congr rfl rfl rfl
  · exact .inr rfl

theorem drop_cases (g : Gateway α) (i : Nat) :
    Served (some g.now) (g.setStage i .dropped) (g.drop i) ∨ g.drop i = g := by
  unfold drop
  split
  · exact .inl ((Served.refl _ _).congr rfl rfl rfl)
  · left
    let m : Motion α := ⟨g.setStage i .dropped, [], [⟨g.now, i⟩]⟩
    exact (Served.serve (m := m) g.pool.queue (.refl _ _)).congr rfl rfl rfl
  · exact .inr rfl

/-! ## What holds wherever calls wait -/

/-- All calls are some that may come, and all that wait do so in some way. -/
structure AtWork (comes : Call α → Prop) (waits : Backend → Pending α → Prop) (g : Gateway α) :
    Prop where
  comes : ∀ t ∈ g.tasks, comes t.call
  waits : ∀ t ∈ g.tasks, ∀ p, t.stage = .working p → waits t.backend p

section AtWork

variable {comes : Call α → Prop} {waits : Backend → Pending α → Prop}

theorem AtWork.congr (h : AtWork comes waits g) (htasks : g'.tasks = g.tasks) :
    AtWork comes waits g' := ⟨htasks ▸ h.comes, htasks ▸ h.waits⟩

theorem AtWork.enter (h : AtWork comes waits g) (context : Nat) {call : Call α}
    (backend : Backend) (hcall : comes call) :
    AtWork comes waits (g.enter context call backend) where
  comes := List.forall_mem_append.2 ⟨h.comes, List.forall_mem_singleton.2 hcall⟩
  waits := List.forall_mem_append.2 ⟨h.waits, List.forall_mem_singleton.2 nofun⟩

theorem AtWork.dropped (h : AtWork comes waits g) (i : Nat) :
    AtWork comes waits (g.setStage i .dropped) := by
  have htask : ∀ t' ∈ (g.setStage i .dropped).tasks, ∃ t ∈ g.tasks, t'.call = t.call ∧
      (t' = t ∨ t'.stage = .dropped) := by
    intro t' ht'
    obtain ⟨j, hj⟩ := List.getElem?_of_mem ht'
    rw [getElem?_setStage] at hj
    split_ifs at hj
    · obtain ⟨t, ht, rfl⟩ := Option.map_eq_some_iff.1 hj
      exact ⟨t, List.mem_of_getElem? ht, rfl, .inr rfl⟩
    · exact ⟨t', List.mem_of_getElem? hj, rfl, .inl rfl⟩
  refine ⟨fun t' ht' => ?_, fun t' ht' p hp => ?_⟩
  · obtain ⟨t, ht, hcall, -⟩ := htask t' ht'
    exact hcall ▸ h.comes t ht
  · obtain ⟨t, ht, -, rfl | hdropped⟩ := htask t' ht'
    · exact h.waits t' ht p hp
    · cases hdropped.symm.trans hp

variable (hrun : ∀ call, comes call → ∀ c b horizon time p,
    (run c b horizon call.work time).2 = .waiting p → waits b p)
  (hresume : ∀ b p, waits b p → ∀ c horizon time p',
    (p.resume c b horizon time).2 = .waiting p' → waits b p')

include hrun in
theorem AtWork.served (h : AtWork comes waits g) (hs : Served horizon g g') :
    AtWork comes waits g' := by
  refine ⟨fun t' ht' => ?_, fun t' ht' p hp => ?_⟩
  all_goals
    obtain ⟨i, hi⟩ := List.getElem?_of_mem ht'
    obtain ⟨t, ht, hcall, -, hbackend, hserved⟩ := hs.exists_task hi
    have hmem := List.mem_of_getElem? ht
  · exact hcall ▸ h.comes t hmem
  · rw [hp] at hserved
    rw [hbackend]
    generalize hstage : Stage.working p = stage at hserved
    cases hserved with
    | stays => exact h.waits t hmem p hstage.symm
    | begins time =>
        exact hrun t.call (h.comes t hmem) _ _ _ _ p (Task.stageOf_eq_working hstage.symm)
    | givesUp time => cases hstage

include hresume in
theorem AtWork.resumed (h : AtWork comes waits g) (horizon : Option Instant) :
    AtWork comes waits (g.resumed horizon) where
  comes := List.forall_mem_map.2 fun t ht => (Task.call_resumed _ _ _ t).symm ▸ h.comes t ht
  waits := by
    refine List.forall_mem_map.2 fun t ht p hp => ?_
    rw [Task.backend_resumed]
    by_cases hworking : ∃ q, t.stage = .working q
    · obtain ⟨q, hq⟩ := hworking
      rw [Task.resumed_of_working _ hq] at hp
      exact hresume _ q (h.waits t ht q hq) _ _ _ p (Task.stageOf_eq_working hp)
    · rw [Task.resumed_of_not_working _ (not_exists.1 hworking)] at hp
      exact h.waits t ht p hp

include hrun hresume

theorem AtWork.advance (h : AtWork comes waits g) (horizon : Option Instant) :
    AtWork comes waits (g.advance horizon) :=
  (h.resumed hresume horizon).served hrun (served_advance horizon g)

/-- What holds of the work of the calls that may come, wherever it waits, holds of all calls. -/
theorem Reachable.atWork {pool : Pool} (h : Reachable comes pool g) : AtWork comes waits g := by
  induction h with
  | refl => exact ⟨List.forall_mem_nil _, List.forall_mem_nil _⟩
  | @tail g g' _ hchange ih =>
      cases hchange with
      | addContext c => exact ih.congr rfl
      | @start context call backend hcall =>
          have hentered := ih.enter context backend hcall
          rcases start_cases g context call backend with hs | hs
          · exact hentered.served hrun hs
          · exact hs ▸ hentered.advance hrun hresume _
      | revoke context => exact ih.congr rfl
      | settle => exact ih.advance hrun hresume _
      | drop i =>
          rcases drop_cases g i with hs | hs
          · exact (ih.dropped i).served hrun hs
          · exact ih.congr (congrArg Gateway.tasks hs)
      | pass millis => exact (ih.advance hrun hresume _).congr rfl
      | finish => exact (ih.advance hrun hresume none).congr rfl

end AtWork

/-! ## Once nothing more can happen -/

/-- A call that was at work has ended, or waits where its work comes to without a horizon. -/
theorem finish_of_working {t : Task α} {p : Pending α} (ht : g.tasks[i]? = some t)
    (hp : t.stage = .working p) : ∃ stage, g.finish.tasks[i]? = some { t with stage } ∧
      ((∃ time v, stage = .ended time v) ∨ ∃ p', stage = .working p' ∧
        ((p.resume (g.contextOf t.context) t.backend none g.now).2 = .waiting p' ∨
          ∃ time, (run (g.contextOf t.context) t.backend none t.call.work time).2 =
            .waiting p')) := by
  have hresumed : (g.resumed none).tasks[i]? =
      some (t.resumed (g.contextOf t.context) none g.now) := by
    rw [resumed, List.getElem?_map, ht]
    rfl
  obtain ⟨stage, hstage, hserved⟩ := (served_advance none g).task i _ hresumed
  rw [Task.resumed_of_working _ hp] at hstage hserved
  refine ⟨stage, hstage, ?_⟩
  cases hserved with
  | stays =>
      rcases Task.stageOf_cases (p.resume (g.contextOf t.context) t.backend none g.now).2 with
        hended | ⟨p', hworking, hr⟩
      · exact .inl hended
      · exact .inr ⟨p', hworking, .inl hr⟩
  | begins time =>
      rcases Task.stageOf_cases (run (g.contextOf t.context) t.backend none t.call.work time).2 with
        hended | ⟨p', hworking, hr⟩
      · exact .inl hended
      · exact .inr ⟨p', hworking, .inr ⟨time, hr⟩⟩
  | givesUp time => exact .inl ⟨time, _, rfl⟩

/-- Whoever is over holds no slot. -/
theorem Reachable.not_mem_holders {comes : Call α → Prop} {pool : Pool} (hvalid : pool.Valid)
    (hline : pool.line = []) (h : Reachable comes pool g) {t : Task α}
    (ht : g.tasks[i]? = some t) (hover : t.stage.isOver = true) : i ∉ g.pool.holders := by
  obtain ⟨traffic, htraffic, hshown⟩ := h.exists_shown hvalid hline
  obtain ⟨v, hv, -, -, hstage⟩ := hshown.exists_visit ht
  intro hi
  rw [← hshown.pool] at hi
  obtain ⟨v', hv', hpresent⟩ :=
    ((htraffic.sound hvalid hline).line i).1 (List.mem_append_left _ hi)
  obtain rfl := Option.some.inj (hv.symm.trans hv')
  rw [hstage.isGone hover List.not_mem_nil] at hpresent
  cases hpresent

end Gateway

end SqlGate
