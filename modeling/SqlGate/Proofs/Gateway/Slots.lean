import SqlGate.Proofs.Gateway.Simulation

/-!
# Conservation of slots

However calls come, wait, give up, are dropped and leave, and whatever becomes of their contexts,
the slots that are free and the calls that have one make up the capacity of the pool
(`slots_conserved`). A call has a slot from the moment at which it is handed one, also if it is
dropped before it has noticed, or has given up already.
-/

namespace SqlGate

open Admission

variable {α : Type}

namespace Gateway

variable {g : Gateway α} {t : Traffic α}

theorem Shown.isGone (h : g.Shown [] t) (hg : ∀ task ∈ g.tasks, task.stage.isOver = true) :
    ∀ v ∈ t.visits, v.phase.isGone = true := by
  intro v hv
  obtain ⟨i, hi⟩ := List.getElem?_of_mem hv
  obtain ⟨task, htask, -, -, hstage⟩ := h.visit i v hi
  exact hstage.isGone (hg task (List.mem_of_getElem? htask)) List.not_mem_nil

theorem Shown.available_eq (h : g.Shown [] t) (hsound : t.Sound)
    (hover : ∀ task ∈ g.tasks, task.stage.isOver = true) : g.available = t.pool.capacity := by
  rw [available, ← h.pool, hsound.free_of_gone (h.isGone hover)]

end Gateway

namespace Traffic

/-- No slot is lost or invented: what is free and who has a slot make up the capacity, nobody has
two, nobody waits while one is free, and all are free once everyone has gone. -/
theorem slots_conserved (comes : Call α → Prop) {n : Nat} {pool : Pool}
    (h : Pool.ofCapacity n = .ok pool) :
    (∀ t : Traffic α, t.Reachable comes pool →
      t.pool.free + t.owners.length = n ∧
      t.owners.Perm t.pool.holders ∧ t.pool.holders.Nodup ∧
      (0 < t.pool.free → t.waiting = []) ∧
      ((∀ v ∈ t.visits, v.phase.isGone = true) → t.pool.free = n)) ∧
    ∀ g : Gateway α, g.Reachable comes pool →
      (∃ t : Traffic α, t.Reachable comes pool ∧ g.Shown [] t) ∧
      g.available + g.pool.holders.length = n ∧ g.pool.holders.Nodup ∧
      (0 < g.available → g.pool.queue = []) ∧
      ((∀ task ∈ g.tasks, task.stage.isOver = true) → g.available = n) := by
  have hvalid : pool.Valid := Pool.valid_of_ofCapacity h
  have hline : pool.line = [] := Pool.line_of_ofCapacity h
  have hcap : ∀ t : Traffic α, t.Reachable comes pool → t.pool.capacity = n := by
    intro t ht
    rw [ht.capacity, Pool.capacity_of_ofCapacity h]
  constructor
  · intro t ht
    have hs : t.Sound := ht.sound hvalid hline
    refine ⟨?_, hs.owners_perm, hs.valid.nodup.of_append_left, hs.waiting_eq_nil, fun hg => ?_⟩
    · rw [hs.count, hcap t ht]
    · rw [hs.free_of_gone hg, hcap t ht]
  · intro g hg
    obtain ⟨t, ht, hshown⟩ := hg.exists_shown hvalid hline
    have hs : t.Sound := ht.sound hvalid hline
    have hp : g.pool = t.pool := hshown.pool.symm
    refine ⟨⟨t, ht, hshown⟩, ?_, ?_, ?_, fun hover => ?_⟩
    · rw [Gateway.available, hp, hs.valid.count, hcap t ht]
    · rw [hp]
      exact hs.valid.nodup.of_append_left
    · rw [Gateway.available, hp]
      exact hs.valid.queue_of_pos
    · rw [hshown.available_eq hs hover, hcap t ht]

/-- There is one slot. The call that held it was dropped after the other one had given up and before
that one left the queue, so it has been handed the slot. -/
def handedLate : Traffic Unit where
  pool := ⟨1, 0, [1], []⟩
  expired := [0]
  visits := [⟨.holding (), 1, .gone, false⟩, ⟨.holding (), 0, .resigned, false⟩]

theorem reachable_handedLate :
    handedLate.Reachable (fun _ => True) ⟨1, 1, [], []⟩ := by
  let first (φ : Phase Unit) : Visit Unit := ⟨.holding (), 1, φ, false⟩
  let second (φ : Phase Unit) : Visit Unit := ⟨.holding (), 0, φ, false⟩
  let alone (φ : Phase Unit) : Traffic Unit := ⟨⟨1, 0, [0], []⟩, [], [first φ]⟩
  let both (expired : List Nat) (φ ψ : Phase Unit) : Traffic Unit :=
    ⟨⟨1, 0, [0], [1]⟩, expired, [first φ, second ψ]⟩
  have start₁ : Step (fun _ => True) (ofPool ⟨1, 1, [], []⟩) (alone .queued) := .start 1 trivial
  have begin₁ : Step (fun _ => True) (alone .queued) (alone (.working .rest)) :=
    .begin (t := alone .queued) (i := 0) (v := first .queued) rfl rfl List.mem_cons_self
  have start₂ : Step (fun _ => True) (alone (.working .rest)) (both [] (.working .rest) .queued) :=
    .start 0 trivial
  have expire₂ : Step (fun _ => True) (both [] (.working .rest) .queued)
      (both [0] (.working .rest) .queued) := .expire 0
  have resign₂ : Step (fun _ => True) (both [0] (.working .rest) .queued)
      (both [0] (.working .rest) .resigned) :=
    .resign (i := 1) (v := second .queued) rfl rfl (by decide) List.mem_cons_self
  have drop₁ : Step (fun _ => True) (both [0] (.working .rest) .resigned)
      (both [0] .leaving .resigned) := .move (i := 0) rfl (.dropWorking rfl)
  have leave₁ : Step (fun _ => True) (both [0] .leaving .resigned) handedLate :=
    .leave (i := 0) (v := first .leaving) rfl rfl
  exact .tail (.tail (.tail (.tail (.tail (.tail (.single start₁) begin₁) start₂) expire₂) resign₂)
    drop₁) leave₁

/-- A slot that was handed to a call that had given up is not lost. -/
theorem slots_conserved_handedLate :
    handedLate.owners = [1] ∧ handedLate.pool.free + handedLate.owners.length = 1 ∧
      (handedLate.release 1 ⟨.holding (), 0, .resigned, false⟩).pool.free = 1 := by
  have hone : Pool.ofCapacity 1 = .ok ⟨1, 1, [], []⟩ := rfl
  have h := (slots_conserved (fun _ : Call Unit => True) hone).1
  have hquit : Step (fun _ => True) handedLate
      (handedLate.release 1 ⟨.holding (), 0, .resigned, false⟩) := .quit rfl rfl
  refine ⟨rfl, (h _ reachable_handedLate).1, ?_⟩
  refine (h _ (reachable_handedLate.tail hquit)).2.2.2.2 fun v hv => ?_
  rcases List.mem_cons.1 hv with rfl | hv
  · rfl
  · rw [List.mem_singleton.1 hv]
    rfl

end Traffic

end SqlGate
