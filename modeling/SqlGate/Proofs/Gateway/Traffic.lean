import Mathlib.Data.List.Perm.Subperm
import Mathlib.Logic.Relation
import SqlGate.Gateway
import SqlGate.Proofs.Admission.Pool
import SqlGate.Proofs.Work.Run

/-!
# Calls in any order

Traffic is what goes on at a pool if nothing is known of the clock: any call that can go on may be
the next one to do so, the database and the guardrails may answer anything, and whatever ends at
some instant may end at any. One step is the smallest thing that happens to one call or one context,
so a call may stand between having ended and having given its slot back, between having been handed
a slot and having noticed, and between having given up and having left the queue.

`Traffic.Sound` says what every step keeps: all who have not gone stand in the line of the pool, and
whoever is past the queue holds a slot.
-/

namespace SqlGate

open Admission Work

/-- How far a call has come. -/
inductive Phase (α : Type) where
  /-- It waits for a slot, and may have been handed one. -/
  | queued
  /-- It has given up, and may be handed a slot yet. -/
  | resigned
  | working (work : Work α)
  | asking (op : Backend.Operation) (next : Reply op.Answer → Work α)
  /-- It has ended, and still has its slot. -/
  | leaving
  | gone

namespace Phase

def isWaiting : Phase α → Bool
  | queued => true
  | resigned => true
  | _ => false

def isAsking : Phase α → Bool
  | asking _ _ => true
  | _ => false

/-- Its work has begun and not ended. -/
def isActive : Phase α → Bool
  | working _ => true
  | asking _ _ => true
  | _ => false

def isGone : Phase α → Bool
  | gone => true
  | _ => false

/-- Past the queue, and not gone. -/
def isServed : Phase α → Bool
  | working _ => true
  | asking _ _ => true
  | leaving => true
  | _ => false

theorem isServed_or_isWaiting (φ : Phase α) : (φ.isServed || φ.isWaiting) = !φ.isGone := by
  cases φ <;> rfl

theorem isServed_of_isActive {φ : Phase α} (h : φ.isActive = true) : φ.isServed = true := by
  cases φ with
  | working work => rfl
  | asking op next => rfl
  | _ => cases h

theorem isActive_of_isWaiting {φ : Phase α} (h : φ.isWaiting = true) : φ.isActive = false := by
  cases φ with
  | working work => cases h
  | asking op next => cases h
  | _ => rfl

theorem isGone_of_isServed {φ : Phase α} (h : φ.isServed = true) : φ.isGone = false := by
  rw [← Bool.not_eq_true', ← isServed_or_isWaiting, h, Bool.true_or]

theorem isGone_of_isWaiting {φ : Phase α} (h : φ.isWaiting = true) : φ.isGone = false := by
  rw [← Bool.not_eq_true', ← isServed_or_isWaiting, h, Bool.or_true]

end Phase

/-- A call on its way. -/
structure Visit (α : Type) where
  call : Call α
  context : Nat
  phase : Phase α
  /-- It owns a transaction. -/
  inTransaction : Bool

namespace Visit

def fresh (call : Call α) (context : Nat) : Visit α := ⟨call, context, .queued, false⟩

/-- Inside an operation on the database, or in possession of a transaction. -/
def isBusy (v : Visit α) : Bool := v.phase.isAsking || v.inTransaction

/-- The smallest things that a call does once it has a slot. -/
inductive Move : Visit α → Visit α → Prop where
  | deadline {v : Visit α} {span : Duration} {inside : Bool} {next : Instant → Work α}
    (t : Instant) (h : v.phase = .working (.deadline span inside next)) :
    Move v { v with phase := .working (next t) }
  /-- The clock does not count so far. -/
  | breakOff {v : Visit α} {span : Duration} {inside : Bool} {next : Instant → Work α}
    (h : v.phase = .working (.deadline span inside next)) :
    Move v { v with phase := .leaving, inTransaction := v.inTransaction && !inside }
  | ask {v : Visit α} {op : Backend.Operation} {limit : Option Instant}
    {next : Reply op.Answer → Work α} (h : v.phase = .working (.perform op limit next)) :
    Move v { v with phase := .asking op next }
  /-- The context is over before the operation is begun. -/
  | skip {v : Visit α} {op : Backend.Operation} {limit : Option Instant}
    {next : Reply op.Answer → Work α} (e : Context.Ending)
    (h : v.phase = .working (.perform op limit next)) :
    Move v { v with
      phase := .working (next (.late e))
      inTransaction := op.owned (.late e) v.inTransaction }
  | reply {v : Visit α} {op : Backend.Operation} {next : Reply op.Answer → Work α}
    (r : Reply op.Answer) (h : v.phase = .asking op next) :
    Move v { v with
      phase := .working (next r)
      inTransaction := op.owned r v.inTransaction }
  | decide {v : Visit α} {g : Guardrail} {payload : String} {limit : Instant}
    {next : Except Guardrail.Fault Guardrail.Response → Work α}
    (d : Except Guardrail.Fault Guardrail.Response)
    (h : v.phase = .working (.consult g payload limit next)) :
    Move v { v with phase := .working (next d) }
  | finish {v : Visit α} {value : α} (h : v.phase = .working (.done value)) :
    Move v { v with phase := .leaving }
  /-- The call is dropped: its transaction first, then its slot. -/
  | dropWorking {v : Visit α} {work : Work α} (h : v.phase = .working work) :
    Move v { v with phase := .leaving, inTransaction := false }
  | dropAsking {v : Visit α} {op : Backend.Operation} {next : Reply op.Answer → Work α}
    (h : v.phase = .asking op next) :
    Move v { v with phase := .leaving, inTransaction := false }

variable {v w : Visit α}

theorem Move.isServed (h : Move v w) : v.phase.isServed = true := by
  cases h <;> simp_all [Phase.isServed]

theorem Move.isServed_right (h : Move v w) : w.phase.isServed = true := by
  cases h <;> rfl

/-- What one step of traffic may make of a call. -/
inductive Becomes : Visit α → Visit α → Prop where
  | same (v : Visit α) : Becomes v v
  | begin {v : Visit α} (h : v.phase = .queued) :
    Becomes v { v with phase := .working v.call.work }
  | resign {v : Visit α} (h : v.phase = .queued) : Becomes v { v with phase := .resigned }
  | move {v w : Visit α} (h : Move v w) : Becomes v w
  | go {v : Visit α} (h : v.phase.isWaiting = true ∨ v.phase = .leaving) :
    Becomes v { v with phase := .gone }

end Visit

/-- Calls at a pool. -/
structure Traffic (α : Type) where
  pool : Pool
  /-- The contexts that are over. -/
  expired : List Nat
  visits : List (Visit α)

namespace Traffic

def ofPool (pool : Pool) : Traffic α := ⟨pool, [], []⟩

def set (t : Traffic α) (i : Nat) (v : Visit α) : Traffic α :=
  { t with visits := t.visits.set i v }

def release (t : Traffic α) (i : Nat) (v : Visit α) : Traffic α :=
  { t.set i { v with phase := .gone } with pool := t.pool.leave i }

/-- What may happen next, if only certain calls come. -/
inductive Step (comes : Call α → Prop) : Traffic α → Traffic α → Prop where
  | start {t : Traffic α} {call : Call α} (context : Nat) (h : comes call) :
    Step comes t { t with
      pool := t.pool.acquire t.visits.length
      visits := t.visits ++ [.fresh call context] }
  /-- A context is cancelled, or its deadline comes. -/
  | expire {t : Traffic α} (context : Nat) : Step comes t { t with expired := context :: t.expired }
  /-- A call takes the slot that it was handed, even if its context is over by then. -/
  | begin {t : Traffic α} {i : Nat} {v : Visit α} (hv : t.visits[i]? = some v)
    (hq : v.phase = .queued) (hs : i ∈ t.pool.holders) :
    Step comes t (t.set i { v with phase := .working v.call.work })
  /-- A call finds that it has no slot and that its context is over. -/
  | resign {t : Traffic α} {i : Nat} {v : Visit α} (hv : t.visits[i]? = some v)
    (hq : v.phase = .queued) (hs : i ∉ t.pool.holders) (hc : v.context ∈ t.expired) :
    Step comes t (t.set i { v with phase := .resigned })
  /-- A call that has given up leaves the queue, or it is dropped while it waits, be it before or
  after it was handed a slot. -/
  | quit {t : Traffic α} {i : Nat} {v : Visit α} (hv : t.visits[i]? = some v)
    (hw : v.phase.isWaiting = true) : Step comes t (t.release i v)
  | move {t : Traffic α} {i : Nat} {v w : Visit α} (hv : t.visits[i]? = some v) (hm : v.Move w) :
    Step comes t (t.set i w)
  | leave {t : Traffic α} {i : Nat} {v : Visit α} (hv : t.visits[i]? = some v)
    (hl : v.phase = .leaving) : Step comes t (t.release i v)

/-- What can come of a pool at which nobody is yet. -/
abbrev Reachable (comes : Call α → Prop) (pool : Pool) (t : Traffic α) : Prop :=
  Relation.ReflTransGen (Step comes) (ofPool pool) t

/-! ## What a step changes -/

variable {comes : Call α → Prop} {pool : Pool} {t t' : Traffic α} {i j : Nat} {v w : Visit α}

theorem getElem?_set (h : t.visits[i]? = some v) (w : Visit α) (j : Nat) :
    (t.set i w).visits[j]? = if j = i then some w else t.visits[j]? := by
  obtain ⟨hi, -⟩ := List.getElem?_eq_some_iff.1 h
  rw [set, List.getElem?_set]
  by_cases hj : i = j
  · rw [if_pos hj, if_pos hi, if_pos hj.symm]
  · rw [if_neg hj, if_neg fun hc => hj hc.symm]

theorem getElem?_set_self (h : t.visits[i]? = some v) (w : Visit α) :
    (t.set i w).visits[i]? = some w := (getElem?_set h w i).trans (if_pos rfl)

theorem getElem?_release (h : t.visits[i]? = some v) (j : Nat) :
    (t.release i v).visits[j]? =
      if j = i then some { v with phase := .gone } else t.visits[j]? :=
  getElem?_set h _ j

theorem set_self (h : t.visits[i]? = some v) : t.set i v = t := by
  obtain ⟨hi, he⟩ := List.getElem?_eq_some_iff.1 h
  rw [set, ← he, List.set_getElem_self]

theorem set_set (t : Traffic α) (i : Nat) (v w : Visit α) : (t.set i v).set i w = t.set i w := by
  rw [set, set, set, List.set_set]

theorem release_set (t : Traffic α) (i : Nat) (v : Visit α) (φ : Phase α) :
    (t.set i { v with phase := φ }).release i { v with phase := φ } = t.release i v := by
  rw [release, release, set_set]
  rfl

@[simp] theorem pool_set (t : Traffic α) (i : Nat) (w : Visit α) : (t.set i w).pool = t.pool := rfl

@[simp] theorem pool_release (t : Traffic α) (i : Nat) (v : Visit α) :
    (t.release i v).pool = t.pool.leave i := rfl

theorem Step.capacity (h : Step comes t t') : t'.pool.capacity = t.pool.capacity := by
  cases h with
  | start context h => exact Pool.capacity_acquire _ _
  | expire context => rfl
  | begin hv hq hs => rfl
  | resign hv hq hs hc => rfl
  | quit hv hw => exact Pool.capacity_leave _ _
  | move hv hm => rfl
  | leave hv hl => exact Pool.capacity_leave _ _

theorem rel_becomes_set (hv : t.visits[i]? = some v) (h : v.Becomes w) (j : Nat) :
    Option.Rel Visit.Becomes t.visits[j]? (t.set i w).visits[j]? := by
  rw [getElem?_set hv]
  by_cases hj : j = i
  · rw [if_pos hj, hj, hv]
    exact .some h
  · rw [if_neg hj]
    cases t.visits[j]? with
    | none => exact .none
    | some x => exact .some (.same x)

/-- What a step does to the calls, each of which may be the one that it is about. -/
theorem Step.rel_becomes (h : Step comes t t') (j : Nat) :
    Option.Rel Visit.Becomes t.visits[j]? t'.visits[j]? ∨
      t.visits[j]? = none ∧
        ∃ call context, comes call ∧ t'.visits[j]? = some (.fresh call context) := by
  have same : ∀ x : Option (Visit α), Option.Rel Visit.Becomes x x := by
    intro x
    cases x with
    | none => exact .none
    | some x => exact .some (.same x)
  cases h with
  | @start call context hc =>
      rw [List.getElem?_append]
      rcases Nat.lt_trichotomy j t.visits.length with hj | hj | hj
      · rw [if_pos hj]
        exact .inl (same _)
      · rw [if_neg (by omega), hj, Nat.sub_self]
        exact .inr ⟨List.getElem?_eq_none (Nat.le_refl _), call, context, hc, rfl⟩
      · rw [if_neg (by omega), List.getElem?_eq_none (by omega),
          List.getElem?_eq_none (by rw [List.length_singleton]; omega)]
        exact .inl .none
  | expire context => exact .inl (same _)
  | begin hv hq hs => exact .inl (rel_becomes_set hv (.begin hq) j)
  | resign hv hq hs hc => exact .inl (rel_becomes_set hv (.resign hq) j)
  | quit hv hw => exact .inl (rel_becomes_set hv (.go (.inl hw)) j)
  | move hv hm => exact .inl (rel_becomes_set hv (.move hm) j)
  | leave hv hl => exact .inl (rel_becomes_set hv (.go (.inr hl)) j)

/-! ## What every step keeps -/

structure Sound (t : Traffic α) : Prop where
  valid : t.pool.Valid
  /-- Those in the line are those who have come and not gone. -/
  line : ∀ i, i ∈ t.pool.line ↔ ∃ v, t.visits[i]? = some v ∧ v.phase.isGone = false
  served : ∀ i v, t.visits[i]? = some v → v.phase.isServed = true → i ∈ t.pool.holders

theorem Sound.ofPool (h : pool.Valid) (hl : pool.line = []) : (ofPool pool : Traffic α).Sound where
  valid := h
  line := by simp [Traffic.ofPool, hl]
  served := by simp [Traffic.ofPool]

theorem Sound.set (h : t.Sound) (hv : t.visits[i]? = some v) (hg : v.phase.isGone = false)
    (hw : w.phase.isGone = false) (hs : w.phase.isServed = true → i ∈ t.pool.holders) :
    (t.set i w).Sound where
  valid := h.valid
  line := by
    intro j
    rw [pool_set, h.line, getElem?_set hv]
    by_cases hj : j = i
    · simp [hj, hv, hg, hw]
    · rw [if_neg hj]
  served := by
    intro j x hx hsx
    rw [getElem?_set hv] at hx
    by_cases hj : j = i
    · rw [if_pos hj, Option.some.injEq] at hx
      rw [hj]
      exact hs (hx ▸ hsx)
    · rw [if_neg hj] at hx
      exact h.served j x hx hsx

theorem Sound.release (h : t.Sound) (hv : t.visits[i]? = some v) : (t.release i v).Sound where
  valid := h.valid.leave i
  line := by
    intro j
    rw [pool_release, h.valid.mem_line_leave, h.line, getElem?_release hv]
    by_cases hj : j = i
    · simp [hj, Phase.isGone]
    · simp [hj]
  served := by
    intro j x hx hsx
    rw [getElem?_release hv] at hx
    by_cases hj : j = i
    · rw [if_pos hj, Option.some.injEq] at hx
      rw [← hx] at hsx
      cases hsx
    · rw [if_neg hj] at hx
      exact Pool.mem_holders_leave (h.served j x hx hsx) hj

theorem Sound.start (h : t.Sound) (call : Call α) (context : Nat) :
    Sound { t with
      pool := t.pool.acquire t.visits.length
      visits := t.visits ++ [.fresh call context] } where
  valid := by
    -- The number of the call that comes is not yet in the line.
    refine h.valid.acquire fun hmem => ?_
    obtain ⟨v, hv, -⟩ := (h.line _).1 hmem
    rw [List.getElem?_eq_none (Nat.le_refl _)] at hv
    cases hv
  line := by
    intro j
    rw [h.valid.line_acquire, List.mem_append, List.mem_singleton, h.line, List.getElem?_append]
    rcases Nat.lt_trichotomy j t.visits.length with hj | hj | hj
    · simp [hj, Nat.ne_of_lt hj]
    · simp [hj, Visit.fresh, Phase.isGone]
    · rw [if_neg (by omega), List.getElem?_eq_none (by omega),
        List.getElem?_eq_none (by rw [List.length_singleton]; omega)]
      simp [Nat.ne_of_gt hj]
  served := by
    intro j x hx hsx
    rw [List.getElem?_append] at hx
    by_cases hj : j < t.visits.length
    · rw [if_pos hj] at hx
      exact Pool.mem_holders_acquire _ (h.served j x hx hsx)
    · rw [if_neg hj] at hx
      obtain rfl : x = .fresh call context := by simpa using List.mem_of_getElem? hx
      cases hsx

theorem Sound.step (h : t.Sound) (hs : Step comes t t') : t'.Sound := by
  cases hs with
  | start context hc => exact h.start _ context
  | expire context => exact ⟨h.valid, h.line, h.served⟩
  | begin hv hq hs => exact h.set hv (by rw [hq]; rfl) rfl fun _ => hs
  | resign hv hq hs hc => exact h.set hv (by rw [hq]; rfl) rfl nofun
  | quit hv hw => exact h.release hv
  | move hv hm =>
      have hserved := h.served _ _ hv hm.isServed
      exact h.set hv (Phase.isGone_of_isServed hm.isServed)
        (Phase.isGone_of_isServed hm.isServed_right) fun _ => hserved
  | leave hv hl => exact h.release hv

theorem Sound.steps (h : t.Sound) (hs : Relation.ReflTransGen (Step comes) t t') : t'.Sound := by
  induction hs with
  | refl => exact h
  | tail _ hstep ih => exact ih.step hstep

theorem Reachable.sound (hp : pool.Valid) (hl : pool.line = []) (h : Reachable comes pool t) :
    t.Sound :=
  (Sound.ofPool hp hl).steps h

theorem Reachable.capacity (h : Reachable comes pool t) : t.pool.capacity = pool.capacity := by
  induction h with
  | refl => rfl
  | tail _ hstep ih => exact hstep.capacity.trans ih

/-! ## Counting -/

/-- The numbers of the calls of which something is true. -/
def those (t : Traffic α) (q : Nat → Visit α → Bool) : List Nat :=
  (List.range t.visits.length).filter fun i => t.visits[i]?.any (q i)

theorem mem_those {q : Nat → Visit α → Bool} :
    i ∈ t.those q ↔ ∃ v, t.visits[i]? = some v ∧ q i v = true := by
  rw [those, List.mem_filter, List.mem_range, Option.any_eq_true]
  constructor
  · exact fun h => h.2
  · rintro ⟨v, hv, hq⟩
    exact ⟨(List.getElem?_eq_some_iff.1 hv).1, v, hv, hq⟩

theorem nodup_those (t : Traffic α) (q : Nat → Visit α → Bool) : (t.those q).Nodup :=
  List.nodup_range.filter _

/-- Those who hold a slot, and those to whom one was handed who have not noticed yet. -/
def owners (t : Traffic α) : List Nat :=
  t.those fun i v => v.phase.isServed || v.phase.isWaiting && t.pool.isHeldBy i

/-- Those who wait and have not been handed a slot. -/
def waiting (t : Traffic α) : List Nat :=
  t.those fun i v => v.phase.isWaiting && !t.pool.isHeldBy i

/-- Those inside an operation on the database or in possession of a transaction. -/
def busy (t : Traffic α) : List Nat := t.those fun _ v => v.isBusy

theorem Sound.mem_owners (h : t.Sound) : i ∈ t.owners ↔ i ∈ t.pool.holders := by
  rw [owners, mem_those]
  constructor
  · rintro ⟨v, hv, ho⟩
    rw [Bool.or_eq_true, Bool.and_eq_true] at ho
    rcases ho with hs | ⟨-, hheld⟩
    · exact h.served i v hv hs
    · exact List.contains_iff_mem.1 hheld
  · intro hi
    obtain ⟨v, hv, hg⟩ := (h.line i).1 (Pool.mem_line.2 (.inl hi))
    refine ⟨v, hv, ?_⟩
    have hheld : t.pool.isHeldBy i = true := List.contains_iff_mem.2 hi
    rw [hheld, Bool.and_true, Phase.isServed_or_isWaiting, hg]
    rfl

theorem Sound.owners_perm (h : t.Sound) : t.owners.Perm t.pool.holders :=
  (List.perm_ext_iff_of_nodup (t.nodup_those _) h.valid.nodup.of_append_left).2 fun _ =>
    h.mem_owners

theorem Sound.count (h : t.Sound) : t.pool.free + t.owners.length = t.pool.capacity := by
  rw [h.owners_perm.length_eq]
  exact h.valid.count

/-- Whoever stands in the queue has not been handed a slot. -/
theorem Sound.exists_waiting (h : t.Sound) (hi : i ∈ t.pool.queue) :
    ∃ v, t.visits[i]? = some v ∧ v.phase.isWaiting = true ∧ i ∉ t.pool.holders := by
  have hh : i ∉ t.pool.holders := fun hc => h.valid.not_mem_queue hc hi
  obtain ⟨v, hv, hg⟩ := (h.line i).1 (Pool.mem_line.2 (.inr hi))
  have hs : v.phase.isServed = false := Bool.eq_false_iff.2 fun hc => hh (h.served i v hv hc)
  have hw := v.phase.isServed_or_isWaiting
  rw [hs, hg, Bool.false_or] at hw
  exact ⟨v, hv, hw, hh⟩

theorem Sound.waiting_eq_nil (h : t.Sound) (hf : 0 < t.pool.free) : t.waiting = [] := by
  refine List.eq_nil_iff_forall_not_mem.2 fun i hi => ?_
  obtain ⟨v, hv, hw⟩ := mem_those.1 hi
  rw [Bool.and_eq_true, Bool.not_eq_true'] at hw
  rcases Pool.mem_line.1 ((h.line i).2 ⟨v, hv, Phase.isGone_of_isWaiting hw.1⟩) with hh | hq
  · exact Bool.eq_false_iff.1 hw.2 (List.contains_iff_mem.2 hh)
  · rw [h.valid.queue_of_pos hf] at hq
    cases hq

theorem Sound.free_of_gone (h : t.Sound) (hg : ∀ v ∈ t.visits, v.phase.isGone = true) :
    t.pool.free = t.pool.capacity := by
  refine h.valid.free_of_line_nil (List.eq_nil_iff_forall_not_mem.2 fun i hi => ?_)
  obtain ⟨v, hv, hng⟩ := (h.line i).1 hi
  rw [hg v (List.mem_of_getElem? hv)] at hng
  cases hng

end Traffic

end SqlGate
