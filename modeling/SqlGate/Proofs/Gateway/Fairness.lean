import Mathlib.Data.List.Sort
import SqlGate.Proofs.Gateway.Slots
import SqlGate.Proofs.Gateway.Stages

/-!
# Who gets a slot

Calls are numbered in the order in which they start, and the line at a pool is in that order too,
whatever else goes on. So the slots are always those of the first who have not gone, as many as there
are slots: nobody overtakes anyone who still waits (`Reachable.holders_eq`).

A call is refused only where it finds no slot free and its context over (`Step.of_resigned`). One that
was handed its slot before is never refused, whatever becomes of its context (`Admitted.step`).
-/

namespace SqlGate

open Admission Relation Work

theorem Admission.Pool.Valid.queue_eq_drop {p : Pool} (h : p.Valid) :
    p.queue = p.line.drop p.capacity := by
  have hline : p.line.take p.capacity ++ p.line.drop p.capacity = p.holders ++ p.queue :=
    List.take_append_drop _ _
  rw [← h.holders_eq_take] at hline
  exact (List.append_cancel_left hline).symm

theorem Visit.Becomes.isGone {α : Type} {v w : Visit α} (h : v.Becomes w) (hg : v.phase.isGone = true) :
    w.phase.isGone = true := by
  cases h with
  | same => exact hg
  | begin hq =>
      rw [hq] at hg
      cases hg
  | resign hq =>
      rw [hq] at hg
      cases hg
  | move hm => exact absurd hg (by simp [Phase.isGone_of_isServed hm.isServed])
  | go => rfl

namespace Traffic

variable {α : Type} {comes : Call α → Prop} {pool : Pool} {t t' : Traffic α} {i : Nat}
  {v w : Visit α}

/-! ## The order of the line -/

/-- Those who have come and not gone, in the order in which they came. -/
def present (t : Traffic α) : List Nat := t.those fun _ v => !v.phase.isGone

theorem pairwise_those (t : Traffic α) (q : Nat → Visit α → Bool) :
    (t.those q).Pairwise (· < ·) := List.pairwise_lt_range.filter _

theorem Sound.lt_length (h : t.Sound) (hi : i ∈ t.pool.line) : i < t.visits.length := by
  obtain ⟨v, hv, -⟩ := (h.line i).1 hi
  exact (List.getElem?_eq_some_iff.1 hv).1

/-- Whoever comes is last in number and in the line, and nobody changes his place. -/
theorem Sound.ascending_step (h : t.Sound) (hl : t.pool.line.Pairwise (· < ·))
    (hs : Step comes t t') : t'.pool.line.Pairwise (· < ·) := by
  have hleave : ∀ i, (t.pool.leave i).line.Pairwise (· < ·) := by
    intro i
    rw [Pool.line_leave]
    exact hl.sublist List.erase_sublist
  cases hs with
  | start context hc =>
      rw [h.valid.line_acquire]
      refine List.pairwise_append.2 ⟨hl, List.pairwise_singleton _ _, fun i hi j hj => ?_⟩
      rw [List.mem_singleton.1 hj]
      exact h.lt_length hi
  | expire context => exact hl
  | begin hv hq hs => exact hl
  | resign hv hq hs hc => exact hl
  | quit hv hw => exact hleave _
  | move hv hm => exact hl
  | leave hv hl => exact hleave _

section Reachable

variable (hvalid : pool.Valid) (hline : pool.line = []) (h : t.Reachable comes pool)
include hvalid hline h

theorem Reachable.ascending : t.pool.line.Pairwise (· < ·) := by
  induction h with
  | refl => exact hline ▸ List.Pairwise.nil
  | tail hreach hstep ih => exact (Reachable.sound hvalid hline hreach).ascending_step ih hstep

theorem Reachable.line_eq : t.pool.line = t.present := by
  refine (h.ascending hvalid hline).eq_of_mem_iff (t.pairwise_those _) fun i => ?_
  rw [(h.sound hvalid hline).line, present, mem_those]
  simp

/-- The slots are those of the first who are there, and the others wait. -/
theorem Reachable.holders_eq : t.pool.holders = t.present.take pool.capacity ∧
    t.pool.queue = t.present.drop pool.capacity := by
  have hv := (h.sound hvalid hline).valid
  rw [← h.line_eq hvalid hline, ← h.capacity]
  exact ⟨hv.holders_eq_take, hv.queue_eq_drop⟩

/-- Nobody who still waits has been overtaken. -/
theorem Reachable.lt_of_waiting {j : Nat} (hj : j ∈ t.owners) (hi : i ∈ t.waiting) : j < i := by
  have hs := h.sound hvalid hline
  obtain ⟨v, hv, hw⟩ := mem_those.1 hi
  rw [Bool.and_eq_true, Bool.not_eq_true'] at hw
  have hqueue : i ∈ t.pool.queue := by
    refine (Pool.mem_line.1 ((hs.line i).2 ⟨v, hv, Phase.isGone_of_isWaiting hw.1⟩)).resolve_left ?_
    exact fun hc => Bool.eq_false_iff.1 hw.2 (List.contains_iff_mem.2 hc)
  exact (List.pairwise_append.1 (h.ascending hvalid hline)).2.2 j (hs.mem_owners.1 hj) i hqueue

end Reachable

/-! ## Refusal -/

theorem Sound.free_of_waiting (h : t.Sound) (hv : t.visits[i]? = some v)
    (hg : v.phase.isGone = false) (hs : i ∉ t.pool.holders) : t.pool.free = 0 := by
  have hqueue : i ∈ t.pool.queue :=
    (Pool.mem_line.1 ((h.line i).2 ⟨v, hv, hg⟩)).resolve_left hs
  exact h.valid.idle (List.ne_nil_of_mem hqueue)

/-- A call gives up while it stands in the queue, after its context is over. -/
theorem Step.of_resigned (hs : Step comes t t') (hv : t.visits[i]? = some v)
    (hw : t'.visits[i]? = some w) (hold : v.phase ≠ .resigned) (hnew : w.phase = .resigned) :
    v.phase = .queued ∧ i ∉ t.pool.holders ∧ v.context ∈ t.expired ∧ t'.pool = t.pool := by
  have hsame : t.visits[i]? ≠ some w := by
    intro hc
    obtain rfl := Option.some.inj (hv.symm.trans hc)
    exact hold hnew
  have hset : ∀ {k u x}, t.visits[k]? = some u → (t.set k x).visits[i]? = some w →
      i = k ∧ v = u ∧ w = x := by
    intro k u x hu hx
    rw [getElem?_set hu] at hx
    split_ifs at hx with hik
    · exact ⟨hik, Option.some.inj (hv.symm.trans (hik ▸ hu)), (Option.some.inj hx).symm⟩
    · exact absurd hx hsame
  cases hs with
  | start context hc =>
      rw [List.getElem?_append_left (List.getElem?_eq_some_iff.1 hv).1] at hw
      exact absurd hw hsame
  | expire context => exact absurd hw hsame
  | begin hu hq hs =>
      obtain ⟨-, -, rfl⟩ := hset hu hw
      cases hnew
  | resign hu hq hs hc =>
      obtain ⟨rfl, rfl, -⟩ := hset hu hw
      exact ⟨hq, hs, hc, rfl⟩
  | quit hu hwait =>
      obtain ⟨-, -, rfl⟩ := hset hu hw
      cases hnew
  | move hu hm =>
      obtain ⟨-, -, rfl⟩ := hset hu hw
      have hserved := hm.isServed_right
      rw [hnew] at hserved
      cases hserved
  | leave hu hleaving =>
      obtain ⟨-, -, rfl⟩ := hset hu hw
      cases hnew

/-! ## Admission -/

/-- A call that has been handed its slot and has not given up, or has gone since. -/
def Admitted (t : Traffic α) (i : Nat) : Prop :=
  ∃ v, t.visits[i]? = some v ∧
    (v.phase.isGone = true ∨ i ∈ t.pool.holders ∧ v.phase ≠ .resigned)

theorem Step.exists_visit (hs : Step comes t t') (hv : t.visits[i]? = some v) :
    ∃ w, t'.visits[i]? = some w ∧ v.Becomes w := by
  rcases hs.rel_becomes i with hrel | ⟨hnone, -⟩
  · rw [hv] at hrel
    generalize ht' : t'.visits[i]? = x at hrel
    cases hrel with
    | some hb => exact ⟨_, rfl, hb⟩
  · cases hv.symm.trans hnone

/-- A slot is lost only by going. -/
theorem Step.mem_holders (hs : Step comes t t') (hi : i ∈ t.pool.holders)
    (hw : t'.visits[i]? = some w) (hg : w.phase.isGone = false) : i ∈ t'.pool.holders := by
  have hrelease : ∀ {k u}, t.visits[k]? = some u → (t.release k u).visits[i]? = some w →
      i ∈ (t.release k u).pool.holders := by
    intro k u hu hx
    rw [getElem?_release hu] at hx
    split_ifs at hx with hik
    · cases hx
      cases hg
    · exact Pool.mem_holders_leave hi hik
  cases hs with
  | start context hc => exact Pool.mem_holders_acquire _ hi
  | expire context => exact hi
  | begin hu hq hs => exact hi
  | resign hu hq hs hc => exact hi
  | quit hu hwait => exact hrelease hu hw
  | move hu hm => exact hi
  | leave hu hleaving => exact hrelease hu hw

/-- Whatever happens, a call that was handed its slot is not refused. -/
theorem Admitted.step (h : t.Admitted i) (hs : Step comes t t') : t'.Admitted i := by
  obtain ⟨v, hv, h⟩ := h
  obtain ⟨w, hw, hb⟩ := hs.exists_visit hv
  refine ⟨w, hw, ?_⟩
  rcases h with hg | ⟨hi, hold⟩
  · exact .inl (hb.isGone hg)
  · cases hg : w.phase.isGone with
    | true => exact .inl rfl
    | false =>
        refine .inr ⟨hs.mem_holders hi hw hg, fun hnew => ?_⟩
        exact (hs.of_resigned hv hw hold hnew).2.1 hi

theorem Admitted.steps (h : t.Admitted i) (hs : ReflTransGen (Step comes) t t') :
    t'.Admitted i := by
  induction hs with
  | refl => exact h
  | tail _ hstep ih => exact ih.step hstep

/-- A call that comes while a slot is free. -/
theorem admitted_start (call : Call α) (context : Nat) (hf : 0 < t.pool.free) :
    Admitted { t with
      pool := t.pool.acquire t.visits.length
      visits := t.visits ++ [.fresh call context] } t.visits.length := by
  refine ⟨.fresh call context, List.getElem?_concat_length, .inr ⟨?_, nofun⟩⟩
  rw [Pool.acquire_of_pos _ hf]
  exact List.mem_append_right _ List.mem_cons_self

end Traffic

/-! ## Gateways -/

namespace Gateway

variable {α : Type} {g : Gateway α} {t : Traffic α}

/-- The calls that are not over, in the order in which they started. -/
def present (g : Gateway α) : List Nat :=
  (List.range g.tasks.length).filter fun i => g.tasks[i]?.any fun task => !task.stage.isOver

theorem Stage.Shows.isGone_eq {uncounted : Prop} {stage : Stage α} {φ : Phase α}
    (h : stage.Shows uncounted φ) (hu : ¬ uncounted) : φ.isGone = stage.isOver := by
  cases h with
  | queued => rfl
  | working hp => cases hp <;> rfl
  | leaving hs hc => exact absurd hc hu
  | gone hs hc => exact hs.symm

theorem Shown.present_eq (h : g.Shown [] t) : t.present = g.present := by
  unfold Traffic.present Traffic.those present
  rw [h.length]
  refine List.filter_congr fun i hi => ?_
  obtain ⟨v, hv, -, -, hstage⟩ :=
    h.exists_visit (List.getElem?_eq_getElem (List.mem_range.1 hi))
  rw [hv, List.getElem?_eq_getElem (List.mem_range.1 hi)]
  exact congrArg (!·) (Stage.Shows.isGone_eq hstage List.not_mem_nil)

theorem tasks_leaveAll (ds : List Departure) (m : Motion α) :
    (ds.foldl Motion.leave m).gateway.tasks = m.gateway.tasks := by
  induction ds generalizing m with
  | nil => rfl
  | cons d ds ih => exact ih (m.leave d)

/-- A call that comes while a slot is free begins, whatever has become of its context. -/
theorem start_of_available (h : 0 < g.available) (context : Nat) (call : Call α)
    (backend : Backend) : (g.start context call backend).stage? g.tasks.length =
      some (Task.stageOf
        (run (g.contextOf context) backend (some g.now) call.work g.now).2) := by
  have hheld : (g.enter context call backend).pool.isHeldBy g.tasks.length = true := by
    unfold enter
    rw [Pool.acquire_of_pos _ h]
    exact List.contains_iff_mem.2 (List.mem_append_right _ List.mem_cons_self)
  have htask : (g.enter context call backend).tasks[g.tasks.length]? =
      some ⟨call, context, backend, .queued⟩ := List.getElem?_concat_length
  let m := (Motion.still (g.enter context call backend)).begin (some g.now) g.tasks.length g.now
  have hstart : (g.start context call backend).tasks = m.gateway.tasks :=
    (congrArg Gateway.tasks (if_pos hheld)).trans (tasks_leaveAll m.departures m)
  have hm : m.gateway = (g.enter context call backend).setStage g.tasks.length (Task.stageOf
      (run (g.contextOf context) backend (some g.now) call.work g.now).2) := by
    change ((Motion.still (g.enter context call backend)).begin _ _ _).gateway = _
    unfold Motion.begin
    rw [show (Motion.still (g.enter context call backend)).gateway.tasks[g.tasks.length]? = _ from
      htask]
    exact gateway_record _ _ _
  rw [stage?, hstart, hm, getElem?_setStage, if_pos rfl, htask]
  rfl

/-- A gateway with so many slots serves its calls in the order in which they start. A call is refused
only when no slot is free and its context has ended, be it that time passes or that a call is dropped,
and one that comes while a slot is free is not refused. -/
structure Fair (n : Nat) (g : Gateway α) : Prop where
  capacity : g.pool.capacity = n
  holders : g.pool.holders = g.present.take n
  queue : g.pool.queue = g.present.drop n
  advance : ∀ horizon, ∃ m, Motion.Attends horizon (g.moved horizon) g.pool.queue m ∧
    (g.advance horizon).pool = m.gateway.pool ∧ (g.advance horizon).tasks = m.gateway.tasks
  drop : ∀ i p, g.stage? i = some (.working p) →
    ∃ m, Motion.Attends (some g.now) (g.dismissed i) g.pool.queue m ∧
      (g.drop i).pool = m.gateway.pool ∧ (g.drop i).tasks = m.gateway.tasks
  start : ∀ context call backend, 0 < g.available →
    (g.start context call backend).stage? g.tasks.length = some (Task.stageOf
      (run (g.contextOf context) backend (some g.now) call.work g.now).2)

theorem Reachable.fair {comes : Call α → Prop} {pool : Pool} (hvalid : pool.Valid)
    (hline : pool.line = []) (hg : g.Reachable comes pool) : g.Fair pool.capacity := by
  obtain ⟨t, ht, hshown⟩ := hg.exists_shown hvalid hline
  have hs := ht.sound hvalid hline
  obtain ⟨hholders, hqueue⟩ := ht.holders_eq hvalid hline
  rw [hshown.pool, hshown.present_eq] at hholders hqueue
  refine ⟨hshown.pool ▸ ht.capacity, hholders, hqueue, fun horizon => ?_, fun i p hp => ?_,
    fun context call backend hf => start_of_available hf context call backend⟩
  · exact ⟨_, (hshown.advance comes horizon hs).2, rfl, rfl⟩
  · refine ⟨_, (hshown.drop comes i hs).2 p hp, ?_⟩
    unfold drop
    rw [hp]
    exact ⟨rfl, rfl⟩

end Gateway

/-! ## Fairness -/

namespace Traffic

/-- The slots, so many, are those of the first who are there, in the order in which they came, and
nobody who still waits has been overtaken. Whoever is refused finds no slot free, when his context is
over. Whoever comes while a slot is free is never refused, and until he begins he can do so, whatever
becomes of his context. -/
structure Fair (comes : Call α → Prop) (n : Nat) (t : Traffic α) : Prop where
  capacity : t.pool.capacity = n
  holders : t.pool.holders = t.present.take n
  queue : t.pool.queue = t.present.drop n
  order : ∀ j ∈ t.owners, ∀ i ∈ t.waiting, j < i
  refused : ∀ (t' : Traffic α) (i : Nat) (v w : Visit α), Step comes t t' →
    t.visits[i]? = some v → t'.visits[i]? = some w → v.phase ≠ .resigned → w.phase = .resigned →
      t.pool.free = 0 ∧ t'.pool = t.pool ∧ v.context ∈ t.expired
  admitted : ∀ (call : Call α) (context : Nat), 0 < t.pool.free → ∀ t', ReflTransGen (Step comes)
    { t with
      pool := t.pool.acquire t.visits.length
      visits := t.visits ++ [.fresh call context] } t' →
    ∃ v, t'.visits[t.visits.length]? = some v ∧ v.phase ≠ .resigned ∧
      (v.phase = .queued →
        Step comes t' (t'.set t.visits.length { v with phase := .working v.call.work }))

theorem Reachable.fair {α : Type} {comes : Call α → Prop} {pool : Pool} {t : Traffic α}
    (hvalid : pool.Valid) (hline : pool.line = []) (ht : t.Reachable comes pool) :
    t.Fair comes pool.capacity := by
  have hs := ht.sound hvalid hline
  obtain ⟨hholders, hqueue⟩ := ht.holders_eq hvalid hline
  refine ⟨ht.capacity, hholders, hqueue, fun j hj i hi => ht.lt_of_waiting hvalid hline hj hi,
    fun t' i v w hstep hv hw hold hnew => ?_, fun call context hf t' hsteps => ?_⟩
  · obtain ⟨hq, hi, hc, hpool⟩ := hstep.of_resigned hv hw hold hnew
    exact ⟨hs.free_of_waiting hv (by rw [hq]; rfl) hi, hpool, hc⟩
  · obtain ⟨v, hv, hgone | ⟨hi, hold⟩⟩ := (admitted_start call context hf).steps hsteps
    · refine ⟨v, hv, fun hr => ?_, fun hq => ?_⟩
      · rw [hr] at hgone
        cases hgone
      · rw [hq] at hgone
        cases hgone
    · exact ⟨v, hv, hold, fun hq => .begin hv hq hi⟩

/-- Admission is fair, in whatever order calls come, wait, give up, are dropped and leave, and
whatever becomes of their contexts. -/
theorem served_in_order {α : Type} (comes : Call α → Prop) {n : Nat} {pool : Pool}
    (h : Pool.ofCapacity n = .ok pool) :
    (∀ t : Traffic α, t.Reachable comes pool → t.Fair comes n) ∧
      ∀ g : Gateway α, g.Reachable comes pool → g.Fair n := by
  have hvalid : pool.Valid := Pool.valid_of_ofCapacity h
  have hline : pool.line = [] := Pool.line_of_ofCapacity h
  have hcap : pool.capacity = n := Pool.capacity_of_ofCapacity h
  exact ⟨fun t ht => hcap ▸ ht.fair hvalid hline, fun g hg => hcap ▸ hg.fair hvalid hline⟩

/-- Two calls came to one slot. The first has gone, and the second, which had given up, has been
handed the slot: it is the first of those who are there. And a call that comes to a free slot in a
context that is over has it. -/
theorem served_in_order_handedLate :
    handedLate.pool.holders = handedLate.present.take 1 ∧ handedLate.pool.queue = [] ∧
    ∀ b, (((Gateway.ofPool ⟨1, 1, [], []⟩ : Gateway Unit).addContext ⟨some 0, none⟩).start 0
      (.holding ()) b).stage? 0 = some (.working .resting) := by
  have hone : Pool.ofCapacity 1 = .ok ⟨1, 1, [], []⟩ := rfl
  obtain ⟨htraffic, hgateway⟩ := served_in_order (fun _ : Call Unit => True) hone
  have hfair := htraffic _ reachable_handedLate
  have hover : Gateway.Fair 1
      ((Gateway.ofPool ⟨1, 1, [], []⟩ : Gateway Unit).addContext ⟨some 0, none⟩) :=
    hgateway _ (.single (.addContext _))
  exact ⟨hfair.holders, hfair.queue, fun b => hover.start 0 (.holding ()) b (by decide)⟩

end Traffic

end SqlGate
