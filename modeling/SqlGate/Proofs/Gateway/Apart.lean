import SqlGate.Proofs.Gateway.Simulation
import SqlGate.Proofs.Work.Horizon

/-!
# Calls that nothing bounds

Calls whose contexts never end have only their slots in common. From the instant at which it gets
its slot, each of them is where it would be if it were alone (`Task.Apart`), and whoever holds a slot
is at work (`Motion.Seated`). So if every call comes to its end when it is alone, all of them do, and
each ends as it would alone (`Apart.finish`).
-/

namespace SqlGate

open Admission Work

variable {α : Type}

/-- What becomes of a call that is alone and gets its slot at an instant. -/
def Task.solo (t : Task α) (start : Instant) : List Entry × Progress α :=
  run .unbounded t.backend none t.call.work start

/-- At a horizon, a call is where it would be if it were alone and had got its slot at some
instant. -/
def Task.Apart (horizon : Option Instant) (t : Task α) : Prop :=
  match t.stage with
  | .queued => True
  | .working p => ∃ start entries,
      t.solo start = preceded entries (p.beyond .unbounded t.backend horizon)
  | .ended e v => ∃ start entries, t.solo start = (entries, .ended e v)
  | .dropped => False

namespace Task

variable {horizon : Option Instant} {t : Task α}

/-- The stage that a call is in by what its work has come to. -/
def stageOf : Progress α → Stage α
  | .ended e v => .ended e v
  | .waiting p => .working p

theorem apart_of_complete {start : Instant} {entries : List Entry} {r : List Entry × Progress α}
    (h : t.solo start = preceded entries (complete .unbounded t.backend horizon r)) :
    Apart horizon { t with stage := stageOf r.2 } := by
  obtain ⟨more, p⟩ := r
  cases p with
  | ended e v => exact ⟨start, entries ++ more, h⟩
  | waiting p =>
      refine ⟨start, entries ++ more, h.trans ?_⟩
      simp [complete, preceded]

/-- A call that gets its slot before the horizon. -/
theorem apart_begin {start : Instant} (hstart : Clock.isWithin horizon start = true) :
    Apart horizon
      { t with stage := stageOf (run .unbounded t.backend horizon t.call.work start).2 } := by
  have hsolo : t.solo start = preceded []
      (complete .unbounded t.backend horizon (run .unbounded t.backend horizon t.call.work start)) := by
    rw [complete_run _ hstart]
    rfl
  exact apart_of_complete hsolo

/-- A call that was at work goes on to the next horizon. -/
theorem Apart.resume {now : Instant} {p : Pending α} (h : t.Apart (some now))
    (hp : t.stage = .working p) (hnow : Clock.isWithin horizon now = true) :
    Apart horizon { t with stage := stageOf (p.resume .unbounded t.backend horizon now).2 } := by
  unfold Apart at h
  rw [hp] at h
  obtain ⟨start, entries, hsolo⟩ := h
  exact apart_of_complete (by rw [complete_resume p hnow]; exact hsolo)

/-- A call that is not at work is where it would be at any horizon. -/
theorem Apart.of_not_working (h : t.Apart (some now)) (hp : ∀ p, t.stage ≠ .working p) :
    t.Apart horizon := by
  unfold Apart at h ⊢
  split at h
  · exact trivial
  · next p hstage => exact absurd hstage (hp p)
  · exact h
  · exact h

end Task

namespace Gateway

variable {horizon : Option Instant} {g g' : Gateway α} {m : Motion α} {i j : Nat} {d : Departure}
  {ds : List Departure}

/-- The calls and the databases that they work on, in the order in which they came. -/
def calls (g : Gateway α) : List (Call α × Backend) := g.tasks.map fun t => (t.call, t.backend)

theorem stage?_setStage (g : Gateway α) (i : Nat) (stage : Stage α) (j : Nat) :
    (g.setStage i stage).stage? j =
      if j = i then (g.stage? j).map fun _ => stage else g.stage? j := by
  rw [stage?, stage?, getElem?_setStage]
  split
  · rw [Option.map_map, Option.map_map]
    rfl
  · rfl

theorem calls_setStage (g : Gateway α) (i : Nat) (stage : Stage α) :
    (g.setStage i stage).calls = g.calls := by
  refine List.ext_getElem? fun j => ?_
  rw [calls, calls, List.getElem?_map, List.getElem?_map, getElem?_setStage]
  split
  · rw [Option.map_map]
    rfl
  · rfl

/-- A call has come in a context of its own, and asks for a slot. -/
def receive (g : Gateway α) (call : Call α) (context : Nat) (backend : Backend) : Gateway α :=
  { g with
    contexts := g.contexts ++ [.unbounded]
    tasks := g.tasks ++ [⟨call, context, backend, .queued⟩]
    pool := g.pool.acquire g.tasks.length }

theorem stage?_length : g.stage? g.tasks.length = none := by
  rw [stage?, List.getElem?_eq_none le_rfl]
  rfl

theorem stage?_receive_self (g : Gateway α) (call : Call α) (context : Nat) (backend : Backend) :
    (g.receive call context backend).stage? g.tasks.length = some .queued := by
  rw [stage?, receive, List.getElem?_concat_length]
  rfl

theorem stage?_receive_of_ne (call : Call α) (context : Nat) (backend : Backend)
    (h : j ≠ g.tasks.length) :
    (g.receive call context backend).stage? j = g.stage? j := by
  rw [stage?, stage?, receive, List.getElem?_append]
  split
  · rfl
  · rw [List.getElem?_eq_none (by simp; omega), List.getElem?_eq_none (by omega)]

/-- Where all contexts are without bounds, so is that of every call. -/
theorem contextOf_eq (h : ∀ c ∈ g.contexts, c = .unbounded) (i : Nat) :
    g.contextOf i = .unbounded := by
  unfold contextOf
  cases hc : g.contexts[i]? with
  | none => rfl
  | some c => exact h c (List.mem_of_getElem? hc)

/-- What stays as it is while calls are moved on. -/
structure Same (g g' : Gateway α) : Prop where
  now : g'.now = g.now
  contexts : g'.contexts = g.contexts
  calls : g'.calls = g.calls
  capacity : g'.pool.capacity = g.pool.capacity

theorem Same.refl (g : Gateway α) : Same g g := ⟨rfl, rfl, rfl, rfl⟩

theorem Same.trans {g'' : Gateway α} (h : Same g g') (h' : Same g' g'') : Same g g'' :=
  ⟨h'.now.trans h.now, h'.contexts.trans h.contexts, h'.calls.trans h.calls,
    h'.capacity.trans h.capacity⟩

/-! ## Who has a slot -/

theorem perm_schedule (d : Departure) (ds : List Departure) :
    (schedule d ds).Perm (d :: ds) := by
  induction ds with
  | nil => exact .refl _
  | cons d' ds ih =>
      rw [schedule]
      split
      · exact .refl _
      · exact (ih.cons d').trans (.swap _ _ _)

/-- Whoever waits stands in the queue. Whoever is at work has a slot, and so has whoever has ended
and whose departure has not been counted. Of one call this need not be said: it has a slot, and
nothing has come of that yet. -/
structure Seated (horizon : Option Instant) (but : Option Nat) (m : Motion α) : Prop where
  valid : m.gateway.pool.Valid
  queue : ∀ j, but ≠ some j →
    (j ∈ m.gateway.pool.queue ↔ m.gateway.stage? j = some .queued)
  holders : ∀ j, but ≠ some j → (j ∈ m.gateway.pool.holders ↔
    (∃ p, m.gateway.stage? j = some (.working p)) ∨ j ∈ tasksOf m.departures)
  held : ∀ i, but = some i →
    i ∈ m.gateway.pool.holders ∧ i ∉ tasksOf m.departures ∧ (m.gateway.stage? i).isSome
  left : ∀ d ∈ m.departures, Clock.isWithin horizon d.time = true ∧
    ∃ e v, m.gateway.stage? d.task = some (.ended e v)
  nodup : (tasksOf m.departures).Nodup

namespace Seated

theorem ended_of_mem (h : Seated horizon but m) (hj : j ∈ tasksOf m.departures) :
    ∃ e v, m.gateway.stage? j = some (.ended e v) := by
  obtain ⟨d, hd, rfl⟩ := List.mem_map.1 hj
  exact (h.left d hd).2

/-- A call that is at work may be moved on. -/
theorem of_working (h : Seated horizon none m) {p : Pending α}
    (hi : m.gateway.stage? i = some (.working p)) : Seated horizon (some i) m where
  valid := h.valid
  queue j _ := h.queue j nofun
  holders j _ := h.holders j nofun
  held := by
    rintro _ ⟨⟩
    refine ⟨(h.holders i nofun).2 (.inl ⟨p, hi⟩), fun hc => ?_, by rw [hi]; rfl⟩
    obtain ⟨e, v, hended⟩ := h.ended_of_mem hc
    rw [hi] at hended
    cases hended
  left := h.left
  nodup := h.nodup

/-- What has come of a slot: the call is at work, or it has left. -/
theorem change (h : Seated horizon (some i) m) {stage : Stage α} {ds : List Departure}
    (entries : List Entry) (hstage : stage ≠ .queued)
    (hi : (∃ p, stage = .working p) ∨ i ∈ tasksOf ds)
    (hothers : ∀ j, j ≠ i → (j ∈ tasksOf ds ↔ j ∈ tasksOf m.departures))
    (hleft : ∀ d ∈ ds, d ∈ m.departures ∨ d.task = i ∧ Clock.isWithin horizon d.time = true ∧
      ∃ e v, stage = .ended e v)
    (hnodup : (tasksOf ds).Nodup) : Seated horizon none ⟨m.gateway.setStage i stage, entries, ds⟩ := by
  obtain ⟨hheld, hfresh, hsome⟩ := h.held i rfl
  obtain ⟨x, hx⟩ := Option.isSome_iff_exists.1 hsome
  have hnew : (m.gateway.setStage i stage).stage? i = some stage := by
    rw [stage?_setStage, if_pos rfl, hx]
    rfl
  have hold : ∀ j, j ≠ i → (m.gateway.setStage i stage).stage? j = m.gateway.stage? j := by
    intro j hj
    rw [stage?_setStage, if_neg hj]
  constructor
  case valid => exact h.valid
  case queue =>
    intro j _
    change j ∈ m.gateway.pool.queue ↔ (m.gateway.setStage i stage).stage? j = _
    by_cases hj : j = i
    · rw [hj, hnew]
      simp [h.valid.not_mem_queue hheld, hstage]
    · rw [hold j hj]
      exact h.queue j fun hc => hj (Option.some.inj hc).symm
  case holders =>
    intro j _
    change j ∈ m.gateway.pool.holders ↔
      (∃ p, (m.gateway.setStage i stage).stage? j = _) ∨ j ∈ tasksOf ds
    by_cases hj : j = i
    · rw [hj, hnew]
      simp only [hheld, Option.some.injEq, hi]
    · rw [hold j hj, hothers j hj]
      exact h.holders j fun hc => hj (Option.some.inj hc).symm
  case held => exact nofun
  case left =>
    intro d hd
    change _ ∧ ∃ e v, (m.gateway.setStage i stage).stage? d.task = _
    rcases hleft d hd with hd | ⟨rfl, hwithin, e, v, rfl⟩
    · have hne : d.task ≠ i := fun hc => hfresh (hc ▸ List.mem_map_of_mem hd)
      rw [hold _ hne]
      exact h.left d hd
    · exact ⟨hwithin, e, v, hnew⟩
  case nodup => exact hnodup

/-- What has come of a slot is taken in. -/
theorem record (h : Seated horizon (some i) m) {r : List Entry × Progress α}
    (hr : ∀ e v, r.2 = .ended e v → Clock.isWithin horizon e = true) :
    Seated horizon none (m.record i r) := by
  have hfresh := (h.held i rfl).2.1
  obtain ⟨entries, p⟩ := r
  cases p with
  | waiting p =>
      exact h.change _ nofun (.inl ⟨p, rfl⟩) (fun _ _ => Iff.rfl) (fun d hd => .inl hd) h.nodup
  | ended e v =>
      have hperm := perm_schedule ⟨e, i⟩ m.departures
      have htasks := tasksOf_schedule ⟨e, i⟩ m.departures
      refine h.change _ nofun (.inr ?_) (fun j hj => ?_) (fun d hd => ?_) ?_
      · exact htasks.mem_iff.2 List.mem_cons_self
      · rw [htasks.mem_iff, List.mem_cons, or_iff_right hj]
      · rcases List.mem_cons.1 (hperm.mem_iff.1 hd) with rfl | hd
        · exact .inr ⟨rfl, hr e v rfl, e, v, rfl⟩
        · exact .inl hd
      · exact htasks.nodup_iff.2 (List.nodup_cons.2 ⟨hfresh, h.nodup⟩)

/-- Whoever leaves gave his slot back. -/
theorem mem_erase (h : Seated horizon none m) (hds : m.departures = d :: ds) (j : Nat) :
    j ∈ m.gateway.pool.holders.erase d.task ↔
      (∃ p, m.gateway.stage? j = some (.working p)) ∨ j ∈ tasksOf ds := by
  obtain ⟨e, v, hended⟩ := (h.left d (hds ▸ List.mem_cons_self)).2
  have hnodup := h.nodup
  rw [hds] at hnodup
  have hfresh : d.task ∉ tasksOf ds := (List.nodup_cons.1 hnodup).1
  rw [h.valid.nodup.of_append_left.mem_erase_iff, h.holders j nofun, hds]
  change _ ∧ (_ ∨ j ∈ d.task :: tasksOf ds) ↔ _
  rw [List.mem_cons]
  by_cases hj : j = d.task
  · simp [hj, hended, hfresh]
  · simp [hj]

theorem holds (h : Seated horizon none m) (hds : m.departures = d :: ds) :
    d.task ∈ m.gateway.pool.holders := by
  refine (h.holders _ nofun).2 (.inr ?_)
  rw [hds]
  exact List.mem_cons_self

/-- The slot of one who leaves is handed to the first who waits. -/
theorem hand {rest : List Nat} (h : Seated horizon none m) (hds : m.departures = d :: ds)
    (hq : m.gateway.pool.queue = i :: rest) :
    Seated horizon (some i) (Motion.leave { m with departures := ds } d) := by
  have hpool : m.gateway.pool.leave d.task = { m.gateway.pool with
      holders := m.gateway.pool.holders.erase d.task ++ [i], queue := rest } :=
    Pool.leave_of_mem_cons (h.holds hds) hq
  have hstage : m.gateway.stage? i = some .queued :=
    (h.queue i nofun).1 (hq ▸ List.mem_cons_self)
  have hvalid : (m.gateway.pool.leave d.task).Valid := h.valid.leave d.task
  have hnodup := h.nodup
  rw [hds] at hnodup
  constructor
  case valid => exact hvalid
  case queue =>
    intro j hj
    change j ∈ (m.gateway.pool.leave d.task).queue ↔ m.gateway.stage? j = _
    have hne : j ≠ i := fun hc => hj (congrArg some hc.symm)
    rw [hpool, ← h.queue j nofun, hq, List.mem_cons, or_iff_right hne]
  case holders =>
    intro j hj
    change j ∈ (m.gateway.pool.leave d.task).holders ↔ (∃ p, m.gateway.stage? j = _) ∨ j ∈ tasksOf ds
    have hne : j ≠ i := fun hc => hj (congrArg some hc.symm)
    rw [hpool, List.mem_append, List.mem_singleton, or_iff_left hne, h.mem_erase hds]
  case held =>
    rintro _ ⟨⟩
    change i ∈ (m.gateway.pool.leave d.task).holders ∧ i ∉ tasksOf ds ∧ (m.gateway.stage? i).isSome
    refine ⟨by rw [hpool]; exact List.mem_append_right _ List.mem_cons_self, fun hc => ?_,
      by rw [hstage]; rfl⟩
    obtain ⟨e, v, hended⟩ := h.ended_of_mem (by rw [hds]; exact List.mem_cons_of_mem d.task hc)
    rw [hstage] at hended
    cases hended
  case left => exact fun d' hd' => h.left d' (hds ▸ List.mem_cons_of_mem d hd')
  case nodup => exact (List.nodup_cons.1 hnodup).2

/-- If nobody waits, the slot of one who leaves is free. -/
theorem leave (h : Seated horizon none m) (hds : m.departures = d :: ds)
    (hq : m.gateway.pool.queue = []) :
    Seated horizon none (Motion.leave { m with departures := ds } d) ∧
      (m.gateway.pool.leave d.task).queue = [] := by
  have hpool : m.gateway.pool.leave d.task = { m.gateway.pool with
      free := m.gateway.pool.free + 1, holders := m.gateway.pool.holders.erase d.task } :=
    Pool.leave_of_mem_nil (h.holds hds) hq
  have hnodup := h.nodup
  rw [hds] at hnodup
  refine ⟨?_, by rw [hpool]; exact hq⟩
  constructor
  case valid => exact h.valid.leave d.task
  case queue =>
    intro j _
    change j ∈ (m.gateway.pool.leave d.task).queue ↔ m.gateway.stage? j = _
    rw [hpool]
    exact h.queue j nofun
  case holders =>
    intro j _
    change j ∈ (m.gateway.pool.leave d.task).holders ↔ (∃ p, m.gateway.stage? j = _) ∨ j ∈ tasksOf ds
    rw [hpool]
    exact h.mem_erase hds j
  case held => exact nofun
  case left => exact fun d' hd' => h.left d' (hds ▸ List.mem_cons_of_mem d hd')
  case nodup => exact (List.nodup_cons.1 hnodup).2

end Seated

/-! ## Letting happen what can -/

/-- Calls that nothing bounds are moved on to a horizon. -/
structure Moving (horizon : Option Instant) (but : Option Nat) (m : Motion α) : Prop where
  unbounded : ∀ c ∈ m.gateway.contexts, c = .unbounded
  tasks : ∀ t ∈ m.gateway.tasks, t.Apart horizon
  seated : Seated horizon but m

theorem gateway_record (m : Motion α) (i : Nat) (r : List Entry × Progress α) :
    (m.record i r).gateway = m.gateway.setStage i (Task.stageOf r.2) := by
  obtain ⟨entries, p⟩ := r
  cases p <;> rfl

theorem same_record (m : Motion α) (i : Nat) (r : List Entry × Progress α) :
    Same m.gateway (m.record i r).gateway := by
  rw [gateway_record]
  exact ⟨rfl, rfl, calls_setStage _ _ _, rfl⟩

/-- Each call but the one whose stage is set is what it was. -/
theorem apart_setStage {stage : Stage α} {task : Task α} (htask : g.tasks[i]? = some task)
    (hnew : Task.Apart horizon { task with stage })
    (hold : ∀ j t, j ≠ i → g.tasks[j]? = some t → t.Apart horizon) :
    ∀ t ∈ (g.setStage i stage).tasks, t.Apart horizon := by
  intro t ht
  obtain ⟨j, hj⟩ := List.getElem?_of_mem ht
  rw [getElem?_setStage] at hj
  by_cases hji : j = i
  · rw [if_pos hji, hji, htask] at hj
    exact Option.some.inj hj ▸ hnew
  · rw [if_neg hji] at hj
    exact hold j t hji hj

theorem Moving.begin {time : Instant} (h : Moving horizon (some i) m)
    (ht : Clock.isWithin horizon time = true) :
    Moving horizon none (m.begin horizon i time) ∧
      Same m.gateway (m.begin horizon i time).gateway := by
  obtain ⟨-, -, hsome⟩ := h.seated.held i rfl
  obtain ⟨stage, hstage⟩ := Option.isSome_iff_exists.1 hsome
  obtain ⟨task, htask, -⟩ := Option.map_eq_some_iff.1 hstage
  unfold Motion.begin
  rw [htask]
  dsimp only
  rw [contextOf_eq h.unbounded]
  have hsame := same_record m i (run .unbounded task.backend horizon task.call.work time)
  refine ⟨⟨by rw [hsame.contexts]; exact h.unbounded, ?_, ?_⟩, hsame⟩
  · rw [gateway_record]
    exact apart_setStage htask (Task.apart_begin ht) fun j t _ hj =>
      h.tasks t (List.mem_of_getElem? hj)
  · exact h.seated.record fun e v hend => isWithin_run _ ht hend

theorem Moving.leaveAll (h : Moving horizon none m) (hq : m.gateway.pool.queue = []) :
    let m' := m.departures.foldl Motion.leave { m with departures := [] }
    Moving horizon none m' ∧ m'.departures = [] ∧ Same m.gateway m'.gateway := by
  generalize hds : m.departures = ds
  induction ds generalizing m with
  | nil =>
      obtain ⟨g, entries, departures⟩ := m
      obtain rfl : departures = [] := hds
      exact ⟨h, rfl, .refl _⟩
  | cons d ds ih =>
      obtain ⟨hseated, hq'⟩ := h.seated.leave hds hq
      let m₁ : Motion α := Motion.leave { m with departures := ds } d
      obtain ⟨hmoving, hnil, hsame⟩ := ih (m := m₁) ⟨h.unbounded, h.tasks, hseated⟩ hq' rfl
      have hsame₁ : Same m.gateway m₁.gateway := ⟨rfl, rfl, rfl, Pool.capacity_leave _ _⟩
      exact ⟨hmoving, hnil, hsame₁.trans hsame⟩

theorem endOf_eq_none (h : ∀ c ∈ m.gateway.contexts, c = .unbounded) (i : Nat) :
    m.endOf i = none := by
  unfold Motion.endOf
  cases m.gateway.tasks[i]? with
  | none => rfl
  | some t =>
      rw [Option.bind_some, contextOf_eq h]
      rfl

/-- Those who wait are served: each who leaves hands his slot to the next of them. -/
theorem Moving.serve (queue : List Nat) (h : Moving horizon none m)
    (hall : m.departures ≠ [] → queue = m.gateway.pool.queue) :
    Moving horizon none (m.serve horizon queue) ∧ (m.serve horizon queue).departures = [] ∧
      Same m.gateway (m.serve horizon queue).gateway := by
  induction queue generalizing m with
  | nil =>
      cases hds : m.departures with
      | nil =>
          obtain ⟨g, entries, departures⟩ := m
          obtain rfl : departures = [] := hds
          exact ⟨h, rfl, .refl _⟩
      | cons d ds =>
          obtain ⟨hmoving, hnil, hsame⟩ := h.leaveAll (hall (by simp [hds])).symm
          exact ⟨hmoving, hnil, hsame⟩
  | cons i rest ih =>
      unfold Motion.serve
      cases hds : m.departures with
      | nil =>
          dsimp only
          rw [endOf_eq_none h.unbounded]
          exact ih h fun hne => absurd hds hne
      | cons d ds =>
          dsimp only
          rw [endOf_eq_none h.unbounded]
          have hq : m.gateway.pool.queue = i :: rest := (hall (by simp [hds])).symm
          let m₁ : Motion α := Motion.leave { m with departures := ds } d
          have h₁ : Moving horizon (some i) m₁ :=
            ⟨h.unbounded, h.tasks, h.seated.hand hds hq⟩
          have hpool : (m.gateway.pool.leave d.task).queue = rest := by
            rw [Pool.leave_of_mem_cons (h.seated.holds hds) hq]
          have htime : Clock.isWithin horizon d.time = true :=
            (h.seated.left d (hds ▸ List.mem_cons_self)).1
          obtain ⟨h₂, hsame₂⟩ := h₁.begin htime
          obtain ⟨h₃, hnil, hsame₃⟩ := ih h₂ fun _ => by
            rw [pool_begin]
            exact hpool.symm
          have hsame₁ : Same m.gateway m₁.gateway := ⟨rfl, rfl, rfl, Pool.capacity_leave _ _⟩
          exact ⟨h₃, hnil, hsame₁.trans (hsame₂.trans hsame₃)⟩

/-- One call goes on to the horizon, and nothing is done to the others. -/
theorem Seated.resume {task : Task α} (h : Seated horizon none m)
    (hun : ∀ c ∈ m.gateway.contexts, c = .unbounded) (htask : m.gateway.tasks[i]? = some task)
    (hapart : task.Apart (some m.gateway.now))
    (hnow : Clock.isWithin horizon m.gateway.now = true) :
    Seated horizon none (m.resume horizon i task) ∧
      Same m.gateway (m.resume horizon i task).gateway ∧
      (∀ t, (m.resume horizon i task).gateway.tasks[i]? = some t → t.Apart horizon) ∧
      ∀ j, j ≠ i → (m.resume horizon i task).gateway.tasks[j]? = m.gateway.tasks[j]? := by
  unfold Motion.resume
  split
  · next p hp =>
      have hstage : m.gateway.stage? i = some (.working p) := by rw [stage?, htask, ← hp]; rfl
      rw [contextOf_eq hun]
      refine ⟨(h.of_working hstage).record fun e v hend => isWithin_resume _ hend,
        same_record _ _ _, fun t ht => ?_, fun j hj => ?_⟩
      · rw [gateway_record, getElem?_setStage, if_pos rfl, htask] at ht
        exact Option.some.inj ht ▸ hapart.resume hp hnow
      · rw [gateway_record, getElem?_setStage, if_neg hj]
  · next hp =>
      refine ⟨h, .refl _, fun t ht => ?_, fun _ _ => rfl⟩
      rw [htask] at ht
      exact Option.some.inj ht ▸ hapart.of_not_working hp

/-- All calls that are at work go on to the horizon, one after the other. -/
theorem Seated.resumeAll (tasks : List (Task α)) (k : Nat) (h : Seated horizon none m)
    (hun : ∀ c ∈ m.gateway.contexts, c = .unbounded) (htasks : m.gateway.tasks.drop k = tasks)
    (hdone : ∀ j t, j < k → m.gateway.tasks[j]? = some t → t.Apart horizon)
    (hleft : ∀ t ∈ tasks, t.Apart (some m.gateway.now))
    (hnow : Clock.isWithin horizon m.gateway.now = true) :
    let m' := (tasks.zipIdx k).foldl (fun m (task, i) => m.resume horizon i task) m
    Moving horizon none m' ∧ Same m.gateway m'.gateway ∧ m'.gateway.pool = m.gateway.pool := by
  induction tasks generalizing k m with
  | nil =>
      refine ⟨⟨hun, fun t ht => ?_, h⟩, .refl _, rfl⟩
      obtain ⟨j, hj⟩ := List.getElem?_of_mem ht
      have hlt := (List.getElem?_eq_some_iff.1 hj).1
      exact hdone j t (hlt.trans_le (List.drop_eq_nil_iff.1 htasks)) hj
  | cons task tasks ih =>
      have htask : m.gateway.tasks[k]? = some task := by
        rw [← List.head?_drop, htasks, List.head?_cons]
      obtain ⟨h₁, hsame₁, hnew, hold⟩ :=
        h.resume hun htask (hleft task List.mem_cons_self) hnow
      have hrest : (m.resume horizon k task).gateway.tasks.drop (k + 1) = tasks := by
        rw [drop_tasks_resume, ← List.tail_drop, htasks, List.tail_cons]
      have hdone₁ : ∀ j t, j < k + 1 →
          (m.resume horizon k task).gateway.tasks[j]? = some t → t.Apart horizon := by
        intro j t hj ht
        by_cases hjk : j = k
        · exact hnew t (hjk ▸ ht)
        · rw [hold j hjk] at ht
          exact hdone j t (by omega) ht
      obtain ⟨h₂, hsame₂, hpool⟩ := ih (k + 1) h₁ (by rw [hsame₁.contexts]; exact hun) hrest hdone₁
        (fun t ht => by rw [hsame₁.now]; exact hleft t (List.mem_cons_of_mem _ ht))
        (by rw [hsame₁.now]; exact hnow)
      exact ⟨h₂, hsame₁.trans hsame₂, hpool.trans (pool_resume horizon m k task)⟩

/-- Calls that nothing bounds, each of which has come at a horizon to where it would be alone. -/
def Apart (horizon : Option Instant) (g : Gateway α) : Prop := Moving horizon none (.still g)

namespace Apart

theorem of_moving (h : Moving horizon none m) (hnil : m.departures = [])
    (hcontexts : g.contexts = m.gateway.contexts) (htasks : g.tasks = m.gateway.tasks)
    (hpool : g.pool = m.gateway.pool) : g.Apart horizon := by
  obtain ⟨hun, happart, hvalid, hqueue, hholders, -, -, -⟩ := h
  rw [hnil] at hholders
  have hstage : ∀ j, g.stage? j = m.gateway.stage? j := fun j => by rw [stage?, stage?, htasks]
  constructor
  · change ∀ c ∈ g.contexts, c = .unbounded
    rw [hcontexts]
    exact hun
  · change ∀ t ∈ g.tasks, t.Apart horizon
    rw [htasks]
    exact happart
  · constructor
    case valid =>
      change g.pool.Valid
      rw [hpool]
      exact hvalid
    case queue =>
      intro j hj
      change j ∈ g.pool.queue ↔ g.stage? j = _
      rw [hpool, hstage]
      exact hqueue j hj
    case holders =>
      intro j hj
      change j ∈ g.pool.holders ↔ (∃ p, g.stage? j = _) ∨ j ∈ tasksOf []
      rw [hpool, hstage]
      exact hholders j hj
    case held => exact nofun
    case left => exact nofun
    case nodup => exact List.nodup_nil

/-- Whatever happens until a horizon, every call comes to where it would come alone. -/
theorem advance (h : g.Apart (some g.now)) (hnow : Clock.isWithin horizon g.now = true) :
    (g.advance horizon).Apart horizon ∧ Same g (g.advance horizon) := by
  have hseated : Seated horizon none (.still g) :=
    ⟨h.seated.valid, h.seated.queue, h.seated.holders, nofun, nofun, List.nodup_nil⟩
  obtain ⟨h₁, hsame₁, hpool⟩ := hseated.resumeAll g.tasks 0 h.unbounded List.drop_zero
    (fun j t hj => absurd hj (Nat.not_lt_zero j)) h.tasks hnow
  obtain ⟨h₂, hnil, hsame₂⟩ := h₁.serve g.pool.queue fun _ => (congrArg Pool.queue hpool).symm
  have hsame := hsame₁.trans hsame₂
  exact ⟨of_moving h₂ hnil rfl rfl rfl, hsame.now, hsame.contexts, hsame.calls, hsame.capacity⟩

theorem ofPool {pool : Pool} (hvalid : pool.Valid) (hline : pool.line = []) (horizon) :
    (ofPool pool : Gateway α).Apart horizon := by
  obtain ⟨hholders, hqueue⟩ := List.append_eq_nil_iff.1 hline
  refine ⟨by simp [Motion.still, Gateway.ofPool], by simp [Motion.still, Gateway.ofPool], ?_⟩
  refine ⟨hvalid, fun j _ => ?_, fun j _ => ?_, nofun, nofun, List.nodup_nil⟩
  · simp [Motion.still, Gateway.ofPool, hqueue, stage?]
  · simp [Motion.still, Gateway.ofPool, hholders, stage?, tasksOf]

theorem pass (h : g.Apart (some g.now)) (ms : Nat) :
    (g.pass ms).Apart (some (g.pass ms).now) ∧ (g.pass ms).calls = g.calls ∧
      (g.pass ms).pool.capacity = g.pool.capacity := by
  have hnow : Clock.isWithin (some (g.now + ms)) g.now = true :=
    Clock.isWithin_some.2 (Nat.le_add_right _ _)
  obtain ⟨h', hsame⟩ := h.advance hnow
  exact ⟨of_moving h' rfl rfl rfl rfl, hsame.calls, hsame.capacity⟩

section Receive

variable (call : Call α) (context : Nat) (backend : Backend)

/-- The pool does not know a call yet that is about to come. -/
theorem not_mem_line (h : g.Apart horizon) : g.tasks.length ∉ g.pool.line := by
  intro hc
  rcases Pool.mem_line.1 hc with hc | hc
  · rcases (h.seated.holders _ nofun).1 hc with ⟨p, hp⟩ | hc
    · exact nomatch stage?_length.symm.trans hp
    · exact nomatch hc
  · exact nomatch stage?_length.symm.trans ((h.seated.queue _ nofun).1 hc)

/-- If no slot is free, the call is the last of those that wait for one. -/
theorem seated_receive_of_zero (h : g.Apart horizon) (hfree : g.pool.free = 0) :
    Seated horizon none (.still (g.receive call context backend)) := by
  have hline := not_mem_line h
  have hpool := Pool.acquire_of_zero g.tasks.length hfree
  constructor
  case valid => exact h.seated.valid.acquire hline
  case queue =>
    intro j _
    change j ∈ (g.pool.acquire _).queue ↔ (g.receive call context backend).stage? j = _
    rw [hpool, List.mem_append, List.mem_singleton]
    by_cases hj : j = g.tasks.length
    · simp [hj, stage?_receive_self]
    · rw [or_iff_left hj, stage?_receive_of_ne call context backend hj]
      exact h.seated.queue j nofun
  case holders =>
    intro j _
    change j ∈ (g.pool.acquire _).holders ↔
      (∃ p, (g.receive call context backend).stage? j = _) ∨ j ∈ tasksOf []
    rw [hpool]
    by_cases hj : j = g.tasks.length
    · have hholders : g.tasks.length ∉ g.pool.holders := fun hc => hline (Pool.mem_line.2 (.inl hc))
      simp [hj, stage?_receive_self, hholders, tasksOf]
    · rw [stage?_receive_of_ne call context backend hj]
      exact h.seated.holders j nofun
  case held => exact nofun
  case left => exact nofun
  case nodup => exact List.nodup_nil

/-- If a slot is free, the call has it, though it is not at work yet. -/
theorem seated_receive_of_pos (h : g.Apart horizon) (hfree : 0 < g.pool.free) :
    Seated horizon (some g.tasks.length) (.still (g.receive call context backend)) := by
  have hpool := Pool.acquire_of_pos g.tasks.length hfree
  constructor
  case valid => exact h.seated.valid.acquire (not_mem_line h)
  case queue =>
    intro j hj
    have hne : j ≠ g.tasks.length := fun hc => hj (congrArg some hc.symm)
    change j ∈ (g.pool.acquire _).queue ↔ (g.receive call context backend).stage? j = _
    rw [hpool, stage?_receive_of_ne call context backend hne]
    exact h.seated.queue j nofun
  case holders =>
    intro j hj
    have hne : j ≠ g.tasks.length := fun hc => hj (congrArg some hc.symm)
    change j ∈ (g.pool.acquire _).holders ↔
      (∃ p, (g.receive call context backend).stage? j = _) ∨ j ∈ tasksOf []
    rw [hpool, stage?_receive_of_ne call context backend hne, List.mem_append, List.mem_singleton,
      or_iff_left hne]
    exact h.seated.holders j nofun
  case held =>
    rintro _ ⟨⟩
    change _ ∈ (g.pool.acquire _).holders ∧ _ ∉ tasksOf [] ∧ (Gateway.stage? _ _).isSome
    rw [hpool]
    refine ⟨List.mem_append_right _ List.mem_cons_self, List.not_mem_nil, ?_⟩
    exact Option.isSome_iff_exists.2 ⟨_, stage?_receive_self g call context backend⟩
  case left => exact nofun
  case nodup => exact List.nodup_nil

/-- A call that has come and of which nothing is done yet. -/
theorem comes (h : g.Apart (some g.now)) :
    Moving (some g.now) (if 0 < g.pool.free then some g.tasks.length else none)
      (.still (g.receive call context backend)) := by
  refine ⟨fun c hc => ?_, fun t ht => ?_, ?_⟩
  · rcases List.mem_append.1 hc with hc | hc
    · exact h.unbounded c hc
    · exact List.mem_singleton.1 hc
  · rcases List.mem_append.1 ht with ht | ht
    · exact h.tasks t ht
    · rw [List.mem_singleton.1 ht]
      exact trivial
  · split_ifs with hfree
    · exact seated_receive_of_pos call context backend h hfree
    · exact seated_receive_of_zero call context backend h (Nat.eq_zero_of_not_pos hfree)

end Receive

theorem gateway_leaveAll (ds : List Departure) {m m' : Motion α} (h : m.gateway = m'.gateway) :
    (ds.foldl Motion.leave m).gateway = (ds.foldl Motion.leave m').gateway := by
  induction ds generalizing m m' with
  | nil => exact h
  | cons d ds ih => exact ih (by rw [Motion.leave, Motion.leave, h])

/-- A call starts in a context of its own. -/
theorem start (h : g.Apart (some g.now)) (call : Call α) (backend : Backend) :
    let g' := (g.addContext .unbounded).start g.contexts.length call backend
    g'.Apart (some g'.now) ∧ g'.calls = g.calls ++ [(call, backend)] ∧
      g'.pool.capacity = g.pool.capacity := by
  let g₁ := g.receive call g.contexts.length backend
  have h₁ : Moving (some g.now) (if 0 < g.pool.free then some g.tasks.length else none)
      (.still g₁) := h.comes call g.contexts.length backend
  have hcalls : g₁.calls = g.calls ++ [(call, backend)] := List.map_append
  have hcapacity : g₁.pool.capacity = g.pool.capacity := Pool.capacity_acquire _ _
  have hnow : Clock.isWithin (some g.now) g.now = true := Clock.isWithin_some.2 le_rfl
  intro g'
  rcases Nat.eq_zero_or_pos g.pool.free with hfree | hfree
  · rw [if_neg (by omega)] at h₁
    have hheld : g₁.pool.isHeldBy g.tasks.length = false := by
      refine Bool.eq_false_iff.2 fun hc => ?_
      have hc : g.tasks.length ∈ g₁.pool.holders := List.contains_iff_mem.1 hc
      rcases (h₁.seated.holders _ nofun).1 hc with ⟨p, hp⟩ | hc
      · exact nomatch (stage?_receive_self g call _ backend).symm.trans hp
      · exact nomatch hc
    have hg' : g' = g₁.settle := if_neg (Bool.eq_false_iff.1 hheld)
    obtain ⟨h₂, hsame⟩ := advance (g := g₁) h₁ hnow
    rw [hg']
    refine ⟨?_, hsame.calls.trans hcalls, hsame.capacity.trans hcapacity⟩
    change g₁.settle.Apart (some (g₁.advance (some g.now)).now)
    rw [hsame.now]
    exact h₂
  · rw [if_pos hfree] at h₁
    have hheld : g₁.pool.isHeldBy g.tasks.length = true :=
      List.contains_iff_mem.2 (h₁.seated.held _ rfl).1
    obtain ⟨h₂, hsame₂⟩ := h₁.begin hnow
    have hq : ((Motion.still g₁).begin (some g.now) g.tasks.length g.now).gateway.pool.queue = [] := by
      rw [pool_begin]
      change (g.pool.acquire g.tasks.length).queue = []
      rw [Pool.acquire_of_pos _ hfree]
      exact h.seated.valid.queue_of_pos hfree
    obtain ⟨h₃, hnil, hsame₃⟩ := h₂.leaveAll hq
    let m₂ := (Motion.still g₁).begin (some g.now) g.tasks.length g.now
    have hg' : g' = { (m₂.departures.foldl Motion.leave m₂).gateway with
        log := (m₂.departures.foldl Motion.leave m₂).gateway.log ++
          (m₂.departures.foldl Motion.leave m₂).entries } := if_pos hheld
    have hgateway : (m₂.departures.foldl Motion.leave m₂).gateway =
        (m₂.departures.foldl Motion.leave { m₂ with departures := [] }).gateway :=
      gateway_leaveAll _ rfl
    have hsame := hsame₂.trans hsame₃
    rw [hg', hgateway]
    refine ⟨of_moving ?_ hnil rfl rfl rfl, hsame.calls.trans hcalls, hsame.capacity.trans hcapacity⟩
    rw [hsame.now]
    exact h₃

/-- If every call comes to its end alone, whenever it gets its slot, then all come to their ends, and
each to one that it would come to alone. All slots are free then. -/
theorem finish (h : g.Apart (some g.now)) (hpos : 0 < g.pool.capacity)
    (hends : ∀ x ∈ g.calls, ∀ s p, (run .unbounded x.2 none x.1.work s).2 ≠ .waiting p) :
    g.finish.available = g.pool.capacity ∧ ∀ i call backend, g.calls[i]? = some (call, backend) →
      ∃ start entries e v, run .unbounded backend none call.work start = (entries, .ended e v) ∧
        g.finish.stage? i = some (.ended e v) := by
  obtain ⟨⟨-, happart, hseated⟩, hsame⟩ := h.advance (Clock.isWithin_none g.now)
  -- Nobody is at work any more, so nobody has a slot, and nobody waits for one.
  have hworking : ∀ j p, (g.advance none).stage? j ≠ some (.working p) := by
    intro j p hj
    obtain ⟨t, ht, hp⟩ := Option.map_eq_some_iff.1 hj
    have hmem := List.mem_of_getElem? ht
    have happ := happart t hmem
    unfold Task.Apart at happ
    rw [hp] at happ
    obtain ⟨start, entries, hsolo⟩ := happ
    have hcall : (t.call, t.backend) ∈ g.calls := by
      rw [← hsame.calls]
      exact List.mem_map_of_mem hmem
    exact hends _ hcall start p (congrArg Prod.snd hsolo)
  have hholders : (g.advance none).pool.holders = [] := by
    refine List.eq_nil_iff_forall_not_mem.2 fun j hj => ?_
    rcases (hseated.holders j nofun).1 hj with ⟨p, hp⟩ | hc
    · exact hworking j p hp
    · exact nomatch hc
  have hfree : (g.advance none).pool.free = g.pool.capacity := by
    have hcount : (g.advance none).pool.free + (g.advance none).pool.holders.length = _ :=
      hseated.valid.count
    rw [hholders, List.length_nil, Nat.add_zero] at hcount
    exact hcount.trans hsame.capacity
  have hqueue : (g.advance none).pool.queue = [] :=
    hseated.valid.queue_of_pos (by change 0 < (g.advance none).pool.free; omega)
  refine ⟨hfree, fun i call backend hi => ?_⟩
  rw [← hsame.calls, calls, List.getElem?_map] at hi
  obtain ⟨t, ht, hcall⟩ := Option.map_eq_some_iff.1 hi
  obtain ⟨rfl, rfl⟩ := Prod.mk.inj hcall
  have hstage : (g.advance none).stage? i = some t.stage := by rw [stage?, ht]; rfl
  have happ := happart t (List.mem_of_getElem? ht)
  unfold Task.Apart at happ
  cases hs : t.stage with
  | queued =>
      have hc : i ∈ (g.advance none).pool.queue := (hseated.queue i nofun).2 (hstage.trans (by rw [hs]))
      rw [hqueue] at hc
      exact nomatch hc
  | working p => exact absurd (hstage.trans (by rw [hs])) (hworking i p)
  | dropped =>
      rw [hs] at happ
      exact happ.elim
  | ended e v =>
      rw [hs] at happ
      obtain ⟨start, entries, hsolo⟩ := happ
      exact ⟨start, entries, e, v, hsolo, hstage.trans (by rw [hs])⟩

end Apart

end Gateway

end SqlGate
