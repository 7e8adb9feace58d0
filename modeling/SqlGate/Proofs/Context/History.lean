import Mathlib.Data.List.Induction
import Mathlib.Logic.Relation
import Mathlib.Order.Bounds.Basic
import Mathlib.Order.MinMax
import SqlGate.Context.Forest
import SqlGate.Context.Watch
import SqlGate.Proofs.Context.Await

/-!
# What was asked of the contexts

A history keeps what was asked for, and nothing of what became of it: for each context what it was
derived from and with which deadline, and which contexts were cancelled. `History.Explains` is what
it says of a context at an instant. The deadline is the earliest of those that were asked for on the
way to the root, and a context is cancelled if one on that way was, no matter which came first.

`History.Fits` relates a history to the forest of contexts. Each step keeps it
(`History.Fits.step`), so it holds of whatever is reached from the start.
-/

/-!
## What a context comes from

Each context of a forest comes from at most one other, which was made before it. `Above ps x a` says
that `a` lies on the way from `x` to its root, the list `ps` giving what each context was derived
from. The contexts that are reached when one is cancelled are exactly those that it lies above
(`Forest.mem_subtree`).
-/

namespace SqlGate.Context

open Relation (ReflTransGen)

/-- The context `a` is `x`, or is above the one that `x` was derived from. -/
def Above (ps : List (Option Nat)) : Nat → Nat → Prop :=
  ReflTransGen fun x p => ps[x]? = some (some p)

/-- Every context was made after the one that it was derived from. -/
def Ordered (ps : List (Option Nat)) : Prop :=
  ∀ x p : Nat, ps[x]? = some (some p) → p < x

variable {ps : List (Option Nat)} {q : Option Nat} {x y a : Nat}

theorem Above.refl (ps : List (Option Nat)) (x : Nat) : Above ps x x := ReflTransGen.refl

theorem Above.trans (hy : Above ps y x) (ha : Above ps x a) : Above ps y a :=
  ReflTransGen.trans hy ha

/-- The way to the root goes through the context that one was derived from. -/
theorem above_iff : Above ps x a ↔ x = a ∨ ∃ p, ps[x]? = some (some p) ∧ Above ps p a :=
  ReflTransGen.cases_head_iff

namespace Ordered

theorem nil : Ordered [] := by simp [Ordered]

/-- A new context may come from any that is there. -/
theorem concat (h : Ordered ps) (hq : ∀ p, q = some p → p < ps.length) : Ordered (ps ++ [q]) := by
  intro x p hx
  rcases lt_trichotomy x ps.length with hlt | rfl | hgt
  · rw [List.getElem?_append_left hlt] at hx
    exact h x p hx
  · rw [List.getElem?_concat_length, Option.some.injEq] at hx
    exact hq p hx
  · rw [List.getElem?_eq_none (by simp; omega)] at hx
    cases hx

theorem of_concat (h : Ordered (ps ++ [q])) : Ordered ps := by
  intro x p hx
  have hlt := (List.getElem?_eq_some_iff.mp hx).1
  exact h x p (by rw [List.getElem?_append_left hlt]; exact hx)

theorem le_of_above (h : Ordered ps) (ha : Above ps x a) : a ≤ x := by
  induction ha with
  | refl => exact le_rfl
  | tail _ hp ih => exact (h _ _ hp).le.trans ih

/-- A new context changes nothing about where the others come from. -/
theorem above_concat_of_lt (h : Ordered ps) (hx : x < ps.length) :
    Above (ps ++ [q]) x a ↔ Above ps x a := by
  induction x using Nat.strong_induction_on with
  | _ x ih =>
      have hold : Above ps x a ↔ x = a ∨ ∃ p, ps[x]? = some (some p) ∧ Above ps p a := above_iff
      rw [above_iff, hold, List.getElem?_append_left hx]
      refine or_congr_right (exists_congr fun p => and_congr_right fun hp => ?_)
      have hpx := h x p hp
      exact ih p hpx (hpx.trans hx)

/-- Above a new context are itself and what is above the one that it was derived from. -/
theorem above_concat_length (h : Ordered ps) (hq : ∀ p, q = some p → p < ps.length) :
    Above (ps ++ [q]) ps.length a ↔ a = ps.length ∨ ∃ p, q = some p ∧ Above ps p a := by
  rw [above_iff, List.getElem?_concat_length, eq_comm]
  refine or_congr_right (exists_congr fun p => ?_)
  rw [Option.some.injEq]
  exact and_congr_right fun hp => h.above_concat_of_lt (hq p hp)

end Ordered

namespace Forest

/-- What each context was derived from. -/
def parents (f : Forest) : List (Option Nat) := f.nodes.map (·.parent)

@[simp] theorem length_parents (f : Forest) : f.parents.length = f.size := by
  simp [parents, size]

theorem subtree_concat (ns : List Node) (n : Node) (i : Nat) :
    (Forest.mk (ns ++ [n])).subtree i =
      if follows n ns.length i ((Forest.mk ns).subtree i) then
        (Forest.mk ns).subtree i ++ [ns.length]
      else (Forest.mk ns).subtree i := by
  simp only [subtree, List.zipIdx_append, List.foldl_append, Nat.zero_add]
  rfl

/-- What is reached from a context are the contexts that it lies above. -/
theorem mem_subtree (f : Forest) (h : Ordered f.parents) (i j : Nat) :
    j ∈ f.subtree i ↔ j < f.size ∧ Above f.parents j i := by
  obtain ⟨ns⟩ := f
  -- The last context is reached exactly if it is the one looked for or was derived from one that is.
  induction ns using List.reverseRecOn generalizing j with
  | nil => simp [subtree, size]
  | append_singleton ns n ih =>
      have hps : (Forest.mk (ns ++ [n])).parents = (Forest.mk ns).parents ++ [n.parent] := by
        simp [parents]
      have hlen : (Forest.mk ns).parents.length = ns.length := by simp [parents]
      rw [hps] at h ⊢
      have hold := h.of_concat
      have hpar : ∀ p, n.parent = some p → p < (Forest.mk ns).parents.length := by
        intro p hp
        exact h _ p (by rw [List.getElem?_concat_length, hp])
      have hlast : follows n ns.length i ((Forest.mk ns).subtree i) = true ↔
          Above ((Forest.mk ns).parents ++ [n.parent]) ns.length i := by
        rw [← hlen, hold.above_concat_length hpar, hlen]
        simp only [follows, Bool.or_eq_true, decide_eq_true_eq, Option.any_eq_true,
          List.contains_iff_mem]
        refine or_congr eq_comm (exists_congr fun p => and_congr_right fun hp => ?_)
        rw [ih p hold]
        exact and_iff_right (by simpa [size, hlen] using hpar p hp)
      have hstep : j ∈ (Forest.mk (ns ++ [n])).subtree i ↔ j ∈ (Forest.mk ns).subtree i ∨
          j = ns.length ∧ Above ((Forest.mk ns).parents ++ [n.parent]) ns.length i := by
        rw [subtree_concat, ← hlast]
        split <;> simp_all
      rw [hstep, ih j hold]
      simp only [size, List.length_append, List.length_singleton]
      rcases lt_trichotomy j ns.length with hlt | rfl | hgt
      · rw [hold.above_concat_of_lt (x := j) (by rw [hlen]; exact hlt)]
        simp [hlt, hlt.ne, Nat.lt_succ_of_lt hlt]
      · simp
      · simp [hgt.ne', hgt.not_gt, show ¬ j < ns.length + 1 by omega]

/-! ### What the contexts are after a change -/

theorem get?_concat {f : Forest} {n : Node} {x : Nat} {c : Context}
    (h : (Forest.mk (f.nodes ++ [n])).get? x = some c) :
    f.get? x = some c ∨ x = f.size ∧ c = n.context := by
  obtain ⟨m, hm, rfl⟩ := Option.map_eq_some_iff.mp h
  rw [List.getElem?_append] at hm
  split at hm
  · exact .inl (Option.map_eq_some_iff.mpr ⟨m, hm, rfl⟩)
  · obtain ⟨hlt, rfl⟩ := List.getElem?_eq_some_iff.mp hm
    rw [List.length_singleton] at hlt
    exact .inr ⟨by rw [size]; omega, by simp⟩

open Classical in
/-- Cancelling a context cancels exactly those that it lies above. -/
theorem get?_cancel (f : Forest) (h : Ordered f.parents) (i x : Nat) (now : Instant) :
    (f.cancel i now).get? x =
      (f.get? x).map fun c => if Above f.parents x i then c.cancel now else c := by
  simp only [get?, cancel, List.getElem?_map, List.getElem?_zipIdx, Option.map_map]
  cases hx : f.nodes[x]? with
  | none => rfl
  | some n =>
      have hlt : x < f.size := (List.getElem?_eq_some_iff.mp hx).1
      have hmem : x ∈ f.subtree i ↔ Above f.parents x i := by
        rw [mem_subtree f h, and_iff_right hlt]
      by_cases ha : Above f.parents x i <;> simp [hmem, ha]

@[simp] theorem parents_cancel (f : Forest) (i : Nat) (now : Instant) :
    (f.cancel i now).parents = f.parents := by
  apply List.ext_getElem?
  intro x
  simp only [parents, cancel, List.map_map, List.getElem?_map, List.getElem?_zipIdx,
    Option.map_map]
  cases f.nodes[x]? with
  | none => rfl
  | some n => simp only [Option.map_some, Function.comp_apply]; split <;> rfl

end Forest

end SqlGate.Context

/-! ## What was asked for -/

namespace SqlGate

/-- The instant is the earliest of a set, or none if there are none. -/
def Clock.Earliest (s : Set Instant) : Option Instant → Prop
  | none => s = ∅
  | some t => IsLeast s t

namespace Clock

variable {s u : Set Instant} {a b : Option Instant}

theorem earliest_iff : Earliest s a ↔
    (∀ t, a = some t ↔ IsLeast s t) ∧ (a = none ↔ s = ∅) := by
  cases a with
  | none =>
      refine ⟨fun h : s = ∅ => ?_, fun h => h.2.mp rfl⟩
      subst h
      simp [IsLeast]
  | some t =>
      refine ⟨fun h : IsLeast s t => ⟨fun x => ?_, ?_⟩, fun h => (h.1 t).mp rfl⟩
      · rw [Option.some.injEq]
        exact ⟨fun hx => hx ▸ h, fun hx => h.unique hx⟩
      · simpa using Set.nonempty_iff_ne_empty.mp ⟨t, h.1⟩

/-- The earliest instant of two sets is the earlier of their earliest. -/
theorem Earliest.union (hs : Earliest s a) (hu : Earliest u b) :
    Earliest (s ∪ u) (earlier a b) := by
  cases a with
  | none =>
      have hempty : s = ∅ := hs
      rw [hempty, Set.empty_union]
      exact hu
  | some x =>
      cases b with
      | none =>
          have hempty : u = ∅ := hu
          rw [hempty, Set.union_empty]
          exact hs
      | some y => exact IsLeast.union hs hu

/-- The earliest instant of a set has come if and only if one of the set has. -/
theorem Earliest.hasCome_iff (h : Earliest s a) (now : Instant) :
    hasCome a now = true ↔ ∃ t ∈ s, t ≤ now := by
  cases a with
  | none =>
      have hempty : s = ∅ := h
      simp [hempty, hasCome]
  | some t =>
      have hleast : IsLeast s t := h
      refine ⟨fun ht => ⟨t, hleast.1, by simpa [hasCome] using ht⟩, ?_⟩
      rintro ⟨u, hu, hle⟩
      simpa [hasCome] using (hleast.2 hu).trans hle

end Clock

namespace Context

theorem cancelledAt_cancel_le (c : Context) (now : Instant) {t : Instant}
    (ht : (c.cancel now).cancelledAt = some t) : t ≤ now := by
  unfold cancel Clock.earlier at ht
  cases hc : c.cancelledAt with
  | none =>
      rw [hc, Option.some.injEq] at ht
      exact ht.ge
  | some e =>
      rw [hc, Option.some.injEq] at ht
      exact ht ▸ min_le_right e now

theorem isSome_cancelledAt_cancel (c : Context) (now : Instant) :
    (c.cancel now).cancelledAt.isSome := by
  unfold cancel Clock.earlier
  cases c.cancelledAt <;> rfl

/-- Work does not stop before it was begun. -/
theorem le_outcome (c : Context) (now : Instant) (ms : Option Nat) :
    now ≤ (Watch.outcome c now ms).1 := by
  unfold Watch.outcome
  cases hw : c.await none now (some (now + ms.getD 0)) with
  | none => exact le_rfl
  | some r =>
      obtain ⟨t, o⟩ := r
      rw [← c.within_none] at hw
      have hcomes : c.Comes none now t := comes_of_await (by rintro d ⟨⟩; exact Nat.le_add_right now _) hw
      cases o with
      | none => exact hcomes.le
      | some e => exact hcomes.le

/-- The clock does not go back. -/
theorem Watch.le_of_step {w w' : Watch} {s : Watch.Step} {o : Option Watch.Outcome}
    (hs : w.step s = some (w', o)) : w.now ≤ w'.now := by
  cases s with
  | plant =>
      obtain ⟨rfl, -⟩ : _ ∧ _ := by simpa [Watch.step] using hs
      exact le_rfl
  | derive p span =>
      obtain ⟨d, -, hs⟩ := Option.bind_eq_some_iff.mp hs
      obtain ⟨rfl, -⟩ : _ ∧ _ := by simpa using hs
      exact le_rfl
  | deriveUntil p d =>
      obtain ⟨rfl, -⟩ : _ ∧ _ := by simpa [Watch.step] using hs
      exact le_rfl
  | cancel i =>
      obtain ⟨rfl, -⟩ : _ ∧ _ := by simpa [Watch.step] using hs
      exact le_rfl
  | pass ms =>
      obtain ⟨rfl, -⟩ : _ ∧ _ := by simpa [Watch.step] using hs
      exact Nat.le_add_right _ _
  | await i =>
      obtain ⟨rfl, -⟩ : _ ∧ _ := by simpa [Watch.step] using hs
      exact le_rfl
  | work i ms =>
      obtain ⟨rfl, -⟩ : _ ∧ _ := by simpa [Watch.step] using hs
      cases hc : w.forest.get? i with
      | none => simp [Watch.settle]
      | some c => simpa [Watch.settle] using c.le_outcome w.now ms

/-- What was asked for when a context was made: what it is derived from, and a deadline. -/
structure Birth where
  parent : Option Nat
  limit : Option Instant

/-- What was asked for so far, the contexts in the order in which they were made. -/
structure History where
  births : List Birth
  cancelled : List Nat

namespace History

/-- Nothing was asked for. -/
def empty : History := ⟨[], []⟩

/-- What each context was derived from. -/
def parents (h : History) : List (Option Nat) := h.births.map (·.parent)

/-- The deadlines that were asked for on the way from a context to its root. -/
def limits (h : History) (x : Nat) : Set Instant :=
  {d | ∃ a b, Above h.parents x a ∧ h.births[a]? = some b ∧ b.limit = some d}

/-- A context on the way from one to its root was cancelled. -/
def Cancelled (h : History) (x : Nat) : Prop := ∃ a ∈ h.cancelled, Above h.parents x a

/-- The history with one more context. -/
def bear (h : History) (b : Birth) : History := { h with births := h.births ++ [b] }

/-- The history after a step that is made at an instant. Nothing is derived from, or cancelled, that
is not there. -/
def note (h : History) (now : Instant) : Watch.Step → History
  | .plant => h.bear ⟨none, none⟩
  | .derive p span => if p < h.births.length then h.bear ⟨some p, Clock.after? now span⟩ else h
  | .deriveUntil p d => if p < h.births.length then h.bear ⟨some p, some d⟩ else h
  | .cancel i => if i < h.births.length then { h with cancelled := i :: h.cancelled } else h
  | .pass _ | .await _ | .work _ _ => h

/-- What the history says of a context at an instant. -/
structure Explains (h : History) (x : Nat) (now : Instant) (c : Context) : Prop where
  deadline : ∀ d, c.deadline = some d ↔ IsLeast (h.limits x) d
  no_deadline : c.deadline = none ↔ h.limits x = ∅
  cancelled : c.status now = some .cancelled ↔ h.Cancelled x
  expired : c.status now = some .expired ↔
    ¬ h.Cancelled x ∧ ∃ d, c.deadline = some d ∧ d ≤ now
  live : c.status now = none ↔ ¬ h.Cancelled x ∧ ∀ d, c.deadline = some d → now < d

variable {h : History} {b : Birth} {x a : Nat}

@[simp] theorem length_parents (h : History) : h.parents.length = h.births.length := by
  simp [parents]

@[simp] theorem parents_bear (h : History) (b : Birth) :
    (h.bear b).parents = h.parents ++ [b.parent] := by simp [parents, bear]

/-- On the way to the root, more deadlines and cancelled contexts are met. -/
theorem limits_subset (ha : Above h.parents x a) : h.limits a ⊆ h.limits x := by
  rintro d ⟨p, b, hp, hb, hd⟩
  exact ⟨p, b, ha.trans hp, hb, hd⟩

theorem Cancelled.of_above (hc : h.Cancelled a) (ha : Above h.parents x a) : h.Cancelled x := by
  obtain ⟨i, hi, hia⟩ := hc
  exact ⟨i, hi, ha.trans hia⟩

theorem limits_bear_of_lt (ho : Ordered h.parents) (hx : x < h.births.length) :
    (h.bear b).limits x = h.limits x := by
  have hlen := h.length_parents
  ext d
  refine exists_congr fun a => exists_congr fun c => ?_
  rw [parents_bear, ho.above_concat_of_lt (by omega)]
  refine and_congr_right fun ha => ?_
  have hlt : a < h.births.length := (ho.le_of_above ha).trans_lt hx
  rw [show (h.bear b).births = h.births ++ [b] from rfl, List.getElem?_append_left hlt]

/-- The deadlines of a new context are its own and those of the context that it is derived from. -/
theorem limits_bear_length (ho : Ordered h.parents)
    (hb : ∀ p, b.parent = some p → p < h.births.length) :
    (h.bear b).limits h.births.length =
      {d | ∃ p, b.parent = some p ∧ d ∈ h.limits p} ∪ {d | b.limit = some d} := by
  have hlen := h.length_parents
  have habove : ∀ a, Above (h.bear b).parents h.births.length a ↔
      a = h.births.length ∨ ∃ p, b.parent = some p ∧ Above h.parents p a := by
    intro a
    rw [parents_bear, ← hlen]
    exact ho.above_concat_length (by simpa [hlen] using hb)
  have hold : ∀ a, a < h.births.length → (h.bear b).births[a]? = h.births[a]? :=
    fun a ha => List.getElem?_append_left ha
  have hnew : (h.bear b).births[h.births.length]? = some b := List.getElem?_concat_length
  ext d
  constructor
  · rintro ⟨a, c, ha, hc, hd⟩
    obtain rfl | ⟨p, hp, hpa⟩ := (habove a).mp ha
    · obtain rfl : b = c := Option.some.inj (hnew.symm.trans hc)
      exact .inr hd
    · refine .inl ⟨p, hp, a, c, hpa, ?_, hd⟩
      rw [← hold a ((ho.le_of_above hpa).trans_lt (hb p hp))]
      exact hc
  · rintro (⟨p, hp, a, c, hpa, hc, hd⟩ | hd)
    · refine ⟨a, c, (habove a).mpr (.inr ⟨p, hp, hpa⟩), ?_, hd⟩
      rw [hold a ((ho.le_of_above hpa).trans_lt (hb p hp))]
      exact hc
    · exact ⟨_, b, (habove _).mpr (.inl rfl), hnew, hd⟩

theorem cancelled_bear_of_lt (ho : Ordered h.parents) (hx : x < h.births.length) :
    (h.bear b).Cancelled x ↔ h.Cancelled x := by
  have hlen := h.length_parents
  refine exists_congr fun a => and_congr_right fun _ => ?_
  rw [parents_bear, ho.above_concat_of_lt (by omega)]

theorem cancelled_bear_length (ho : Ordered h.parents)
    (hb : ∀ p, b.parent = some p → p < h.births.length)
    (hc : ∀ a ∈ h.cancelled, a < h.births.length) :
    (h.bear b).Cancelled h.births.length ↔ ∃ p, b.parent = some p ∧ h.Cancelled p := by
  have hlen := h.length_parents
  have habove : ∀ a ∈ h.cancelled, Above (h.bear b).parents h.births.length a ↔
      ∃ p, b.parent = some p ∧ Above h.parents p a := by
    intro a ha
    rw [parents_bear, ← hlen, ho.above_concat_length (by simpa [hlen] using hb), hlen]
    exact or_iff_right (hc a ha).ne
  constructor
  · rintro ⟨a, ha, hax⟩
    obtain ⟨p, hp, hpa⟩ := (habove a ha).mp hax
    exact ⟨p, hp, a, ha, hpa⟩
  · rintro ⟨p, hp, a, ha, hpa⟩
    exact ⟨a, ha, (habove a ha).mpr ⟨p, hp, hpa⟩⟩

theorem cancelled_cons {i : Nat} :
    Cancelled { h with cancelled := i :: h.cancelled } x ↔ Above h.parents x i ∨ h.Cancelled x := by
  simp only [Cancelled, List.mem_cons, exists_eq_or_imp]
  rfl

/-- A step does not take back what was asked for. Only cancelling a context cancels others, and only
those that it lies above. -/
theorem note_keeps (ho : Ordered h.parents) (hx : x < h.births.length) (now : Instant)
    (s : Watch.Step) :
    x < (h.note now s).births.length ∧ (h.note now s).limits x = h.limits x ∧
      ((h.note now s).Cancelled x ↔
        (∃ i, s = .cancel i ∧ i < h.births.length ∧ Above h.parents x i) ∨ h.Cancelled x) := by
  have hbear : ∀ b : Birth, x < (h.bear b).births.length := by
    intro b
    rw [bear, List.length_append]
    omega
  have hgrown : ∀ b, x < (h.bear b).births.length ∧ (h.bear b).limits x = h.limits x ∧
      ((h.bear b).Cancelled x ↔ h.Cancelled x) :=
    fun b => ⟨hbear b, limits_bear_of_lt ho hx, cancelled_bear_of_lt ho hx⟩
  cases s with
  | plant => simpa [note] using hgrown ⟨none, none⟩
  | derive p span =>
      simp only [note]
      split
      · simpa using hgrown ⟨some p, Clock.after? now span⟩
      · simpa using hx
  | deriveUntil p d =>
      simp only [note]
      split
      · simpa using hgrown ⟨some p, some d⟩
      · simpa using hx
  | cancel i =>
      simp only [note]
      split
      · next hi => exact ⟨hx, rfl, by rw [cancelled_cons]; simp [hi]⟩
      · next hi => simpa [hi] using hx
  | pass ms => simpa [note] using hx
  | await i => simpa [note] using hx
  | work i ms => simpa [note] using hx

/-! ### The history fits the contexts -/


/-- The contexts of a forest are what the history makes of them. -/
structure Fits (h : History) (f : Forest) (now : Instant) : Prop where
  parents : f.parents = h.parents
  ordered : Ordered h.parents
  cancelled_lt : ∀ a ∈ h.cancelled, a < h.births.length
  deadline : ∀ x c, f.get? x = some c → Clock.Earliest (h.limits x) c.deadline
  cancelled : ∀ x c, f.get? x = some c → (c.cancelledAt.isSome ↔ h.Cancelled x)
  past : ∀ x c, f.get? x = some c → ∀ t, c.cancelledAt = some t → t ≤ now

namespace Fits

variable {f : Forest} {now now' : Instant} {c : Context}

theorem empty : Fits .empty .empty 0 where
  parents := rfl
  ordered := Ordered.nil
  cancelled_lt := by simp [History.empty]
  deadline := by simp [Forest.get?, Forest.empty]
  cancelled := by simp [Forest.get?, Forest.empty]
  past := by simp [Forest.get?, Forest.empty]

theorem size (hf : Fits h f now) : f.size = h.births.length := by
  rw [← f.length_parents, hf.parents, h.length_parents]

theorem lt (hf : Fits h f now) (hx : f.get? x = some c) : x < h.births.length := by
  rw [← hf.size]
  obtain ⟨n, hn, -⟩ := Option.map_eq_some_iff.mp hx
  exact (List.getElem?_eq_some_iff.mp hn).1

theorem exists_get? (hf : Fits h f now) (hx : x < h.births.length) : ∃ c, f.get? x = some c := by
  rw [← hf.size] at hx
  exact ⟨f.nodes[x].context, by rw [Forest.get?, List.getElem?_eq_getElem hx, Option.map_some]⟩

theorem later (hf : Fits h f now) (hle : now ≤ now') : Fits h f now' :=
  { hf with past := fun x c hx t ht => (hf.past x c hx t ht).trans hle }

theorem hasCome_cancelledAt (hf : Fits h f now) (hx : f.get? x = some c) :
    Clock.hasCome c.cancelledAt now = true ↔ h.Cancelled x := by
  rw [← hf.cancelled x c hx]
  have hpast := hf.past x c hx
  cases hc : c.cancelledAt with
  | none => simp [Clock.hasCome]
  | some t => simpa [Clock.hasCome] using hpast t hc

/-- A history that fits explains every context. -/
theorem explains (hf : Fits h f now) (hx : f.get? x = some c) : h.Explains x now c := by
  obtain ⟨hdeadline, hnone⟩ := Clock.earliest_iff.mp (hf.deadline x c hx)
  have hcancelled := hf.hasCome_cancelledAt hx
  have hcome : Clock.hasCome c.deadline now = true ↔ ∃ d, c.deadline = some d ∧ d ≤ now := by
    simp [Clock.hasCome, Option.any_eq_true]
  refine ⟨hdeadline, hnone, ?_, ?_, ?_⟩
  · rw [← hcancelled]
    unfold status
    cases Clock.hasCome c.cancelledAt now <;> cases Clock.hasCome c.deadline now <;> simp
  · rw [← hcancelled, ← hcome]
    unfold status
    cases Clock.hasCome c.cancelledAt now <;> cases Clock.hasCome c.deadline now <;> simp
  · rw [← hcancelled, ← Clock.hasCome_eq_false_iff]
    unfold status
    cases Clock.hasCome c.cancelledAt now <;> cases Clock.hasCome c.deadline now <;> simp

/-- A context with what the history makes of it may be added. -/
theorem bear (hf : Fits h f now) (hb : ∀ p, b.parent = some p → p < h.births.length)
    (hd : Clock.Earliest ((h.bear b).limits h.births.length) c.deadline)
    (hc : c.cancelledAt.isSome ↔ (h.bear b).Cancelled h.births.length)
    (ht : ∀ t, c.cancelledAt = some t → t ≤ now) :
    Fits (h.bear b) ⟨f.nodes ++ [⟨b.parent, c⟩]⟩ now := by
  have hcases : ∀ {x k}, (Forest.mk (f.nodes ++ [⟨b.parent, c⟩])).get? x = some k →
      x < h.births.length ∧ f.get? x = some k ∨ x = h.births.length ∧ k = c := by
    intro x k hx
    obtain hold | ⟨rfl, rfl⟩ := Forest.get?_concat hx
    · exact .inl ⟨hf.lt hold, hold⟩
    · exact .inr ⟨hf.size, rfl⟩
  constructor
  case parents => simp [Forest.parents, ← hf.parents]
  case ordered => simpa using hf.ordered.concat (by simpa using hb)
  case cancelled_lt =>
    intro a ha
    simpa [History.bear] using Nat.lt_succ_of_lt (hf.cancelled_lt a ha)
  case deadline =>
    intro x k hx
    obtain ⟨hlt, hx⟩ | ⟨rfl, rfl⟩ := hcases hx
    · rw [limits_bear_of_lt hf.ordered hlt]
      exact hf.deadline x k hx
    · exact hd
  case cancelled =>
    intro x k hx
    obtain ⟨hlt, hx⟩ | ⟨rfl, rfl⟩ := hcases hx
    · rw [cancelled_bear_of_lt hf.ordered hlt]
      exact hf.cancelled x k hx
    · exact hc
  case past =>
    intro x k hx
    obtain ⟨-, hx⟩ | ⟨rfl, rfl⟩ := hcases hx
    · exact hf.past x k hx
    · exact ht

theorem plant (hf : Fits h f now) : Fits (h.bear ⟨none, none⟩) (f.plant .unbounded) now := by
  refine hf.bear (by simp) ?_ ?_ (by simp [unbounded])
  · rw [limits_bear_length hf.ordered (by simp)]
    simp [Clock.Earliest, unbounded]
  · rw [cancelled_bear_length hf.ordered (by simp) hf.cancelled_lt]
    simp [unbounded]

theorem derive {p : Nat} {d : Instant} (hf : Fits h f now) (hc : f.get? p = some c) :
    Fits (h.bear ⟨some p, some d⟩) (f.derive p d) now := by
  have hp : ∀ q, some p = some q → q < h.births.length := by
    rintro q ⟨⟩
    exact hf.lt hc
  rw [show f.derive p d = ⟨f.nodes ++ [⟨some p, c.within (some d)⟩]⟩ by simp [Forest.derive, hc]]
  refine hf.bear hp ?_ ?_ (hf.past p c hc)
  · rw [limits_bear_length hf.ordered hp]
    have hown : Clock.Earliest {t | (some d : Option Instant) = some t} (some d) := by
      simp [Clock.Earliest, IsLeast, lowerBounds]
    simpa [within] using (hf.deadline p c hc).union hown
  · rw [cancelled_bear_length hf.ordered hp hf.cancelled_lt]
    simpa [within] using hf.cancelled p c hc

/-- What is asked of a context that is not there changes nothing. -/
theorem derived {p : Nat} {d : Instant} (hf : Fits h f now) :
    Fits (if p < h.births.length then h.bear ⟨some p, some d⟩ else h) (f.derive p d) now := by
  split
  · next hp =>
      obtain ⟨c, hc⟩ := hf.exists_get? hp
      exact hf.derive hc
  · next hp =>
      have hnone : f.get? p = none := by
        cases hc : f.get? p with
        | none => rfl
        | some c => exact absurd (hf.lt hc) hp
      rw [Forest.derive, hnone]
      exact hf

/-- Cancelling a context cancels exactly those that it lies above. -/
theorem cancel {i : Nat} (hf : Fits h f now) :
    Fits (if i < h.births.length then { h with cancelled := i :: h.cancelled } else h)
      (f.cancel i now) now := by
  classical
  have hold : ∀ {x k}, (f.cancel i now).get? x = some k → ∃ c, f.get? x = some c ∧
      k = if Above h.parents x i then c.cancel now else c := by
    intro x k hx
    rw [f.get?_cancel (by rw [hf.parents]; exact hf.ordered), hf.parents] at hx
    obtain ⟨c, hc, rfl⟩ := Option.map_eq_some_iff.mp hx
    exact ⟨c, hc, rfl⟩
  have hparents : (f.cancel i now).parents = h.parents := by
    rw [Forest.parents_cancel, hf.parents]
  have hdeadline : ∀ x k, (f.cancel i now).get? x = some k →
      Clock.Earliest (h.limits x) k.deadline := by
    intro x k hx
    obtain ⟨c, hc, rfl⟩ := hold hx
    have hsame : (if Above h.parents x i then c.cancel now else c).deadline = c.deadline := by
      split <;> rfl
    rw [hsame]
    exact hf.deadline x c hc
  have hpast : ∀ x k, (f.cancel i now).get? x = some k → ∀ t, k.cancelledAt = some t → t ≤ now := by
    intro x k hx t ht
    obtain ⟨c, hc, rfl⟩ := hold hx
    split at ht
    · exact c.cancelledAt_cancel_le now ht
    · exact hf.past x c hc t ht
  split
  · next hi =>
      refine ⟨hparents, hf.ordered, by simpa [hi] using hf.cancelled_lt, hdeadline, ?_, hpast⟩
      intro x k hx
      obtain ⟨c, hc, rfl⟩ := hold hx
      have hwas := hf.cancelled x c hc
      rw [cancelled_cons]
      split
      · next ha => simp [ha, c.isSome_cancelledAt_cancel now]
      · next ha => simpa [ha] using hwas
  · next hi =>
      -- A context that is not there lies above none.
      refine ⟨hparents, hf.ordered, hf.cancelled_lt, hdeadline, ?_, hpast⟩
      intro x k hx
      obtain ⟨c, hc, rfl⟩ := hold hx
      have hnot : ¬ Above h.parents x i :=
        fun ha => hi ((hf.ordered.le_of_above ha).trans_lt (hf.lt hc))
      rw [if_neg hnot]
      exact hf.cancelled x c hc

/-- What a step asks for is what it does to the contexts. -/
theorem step {w w' : Watch} {s : Watch.Step} {o : Option Watch.Outcome}
    (hf : Fits h w.forest w.now) (hs : w.step s = some (w', o)) :
    Fits (h.note w.now s) w'.forest w'.now := by
  have hle := Watch.le_of_step hs
  cases s with
  | plant =>
      obtain ⟨rfl, -⟩ : _ ∧ _ := by simpa [Watch.step] using hs
      exact hf.plant
  | derive p span =>
      obtain ⟨d, hd, hs⟩ := Option.bind_eq_some_iff.mp hs
      obtain ⟨rfl, -⟩ : _ ∧ _ := by simpa using hs
      rw [note, hd]
      exact hf.derived
  | deriveUntil p d =>
      obtain ⟨rfl, -⟩ : _ ∧ _ := by simpa [Watch.step] using hs
      exact hf.derived
  | cancel i =>
      obtain ⟨rfl, -⟩ : _ ∧ _ := by simpa [Watch.step] using hs
      exact hf.cancel
  | pass ms =>
      obtain ⟨rfl, -⟩ : _ ∧ _ := by simpa [Watch.step] using hs
      exact hf.later hle
  | await i =>
      obtain ⟨rfl, -⟩ : _ ∧ _ := by simpa [Watch.step] using hs
      exact hf
  | work i ms =>
      obtain ⟨rfl, -⟩ : _ ∧ _ := by simpa [Watch.step] using hs
      exact hf.later hle

/-- Whether and why a context is over hangs on what was asked for on the way to its root. -/
theorem status_congr {h' : History} {f' : Forest} (hf : Fits h f now) (hf' : Fits h' f' now')
    (hx : x < h.births.length) (hx' : x < h'.births.length) (hlimits : h'.limits x = h.limits x)
    (hcancelled : h'.Cancelled x ↔ h.Cancelled x)
    (hcome : ∀ d ∈ h.limits x, d ≤ now' ↔ d ≤ now) : f'.status x now' = f.status x now := by
  obtain ⟨c, hc⟩ := hf.exists_get? hx
  obtain ⟨c', hc'⟩ := hf'.exists_get? hx'
  have hone : Clock.hasCome c'.cancelledAt now' = Clock.hasCome c.cancelledAt now := by
    rw [Bool.eq_iff_iff, hf'.hasCome_cancelledAt hc', hf.hasCome_cancelledAt hc, hcancelled]
  have htwo : Clock.hasCome c'.deadline now' = Clock.hasCome c.deadline now := by
    rw [Bool.eq_iff_iff, (hf'.deadline x c' hc').hasCome_iff, (hf.deadline x c hc).hasCome_iff,
      hlimits]
    exact exists_congr fun d => and_congr_right (hcome d)
  simp only [Forest.status, hc, hc', Option.bind_some, status, hone, htwo]

/-- A context is over if and only if one on the way to its root was cancelled or a deadline that was
asked for there has come. -/
theorem status_isSome_iff (hf : Fits h f now) (hx : x < h.births.length) :
    (f.status x now).isSome ↔ h.Cancelled x ∨ ∃ d ∈ h.limits x, d ≤ now := by
  obtain ⟨c, hc⟩ := hf.exists_get? hx
  rw [← (hf.deadline x c hc).hasCome_iff, ← hf.hasCome_cancelledAt hc]
  simp only [Forest.status, hc, Option.bind_some, status]
  cases Clock.hasCome c.cancelledAt now <;> cases Clock.hasCome c.deadline now <;> simp

end Fits

end History

/-! ### Whatever is reached -/

namespace Watch

open History

/-- The contexts after some steps, with what was asked for. -/
def follow : History × Watch → List Step → Option (History × Watch)
  | a, [] => some a
  | (h, w), s :: later => do
    let (w', _) ← w.step s
    follow (h.note w.now s, w') later

variable {h h' : History} {w w' : Watch} {x : Nat} {s : Step} {steps : List Step}

theorem follow_cons : follow (h, w) (s :: steps) = some (h', w') ↔
    ∃ v o, w.step s = some (v, o) ∧ follow (h.note w.now s, v) steps = some (h', w') := by
  simp only [follow, Option.bind_eq_bind, Option.bind_eq_some_iff, Prod.exists]

/-- Steps keep it that the history fits. -/
theorem fits_follow (hf : Fits h w.forest w.now) (hs : follow (h, w) steps = some (h', w')) :
    Fits h' w'.forest w'.now := by
  induction steps generalizing h w with
  | nil =>
      obtain ⟨rfl, rfl⟩ : h = h' ∧ w = w' := by simpa [follow] using hs
      exact hf
  | cons s steps ih =>
      obtain ⟨v, o, hv, hs⟩ := follow_cons.mp hs
      exact ih (hf.step hv) hs

/-- A context that is over stays over. -/
theorem isSome_status_follow (hf : Fits h w.forest w.now) (hx : x < h.births.length)
    (hover : (w.forest.status x w.now).isSome) (hs : follow (h, w) steps = some (h', w')) :
    (w'.forest.status x w'.now).isSome := by
  induction steps generalizing h w with
  | nil =>
      obtain ⟨rfl, rfl⟩ : h = h' ∧ w = w' := by simpa [follow] using hs
      exact hover
  | cons s steps ih =>
      obtain ⟨v, o, hv, hs⟩ := follow_cons.mp hs
      obtain ⟨hx', hlimits, hcancelled⟩ := note_keeps hf.ordered hx w.now s
      refine ih (hf.step hv) hx' (((hf.step hv).status_isSome_iff hx').mpr ?_) hs
      rw [hlimits, hcancelled]
      obtain hc | ⟨d, hd, hle⟩ := (hf.status_isSome_iff hx).mp hover
      · exact .inl (.inr hc)
      · exact .inr ⟨d, hd, hle.trans (le_of_step hv)⟩

/-- Whatever the steps were, every context is what was asked for on the way to its root. One that is
over stays over, and those derived from it are over with it. A step makes a difference to a context
only if it cancels one on that way, or if a deadline that was asked for there comes. -/
theorem explains_of_follow (steps : List Step) (h : History) (w : Watch)
    (hs : follow (.empty, .initial) steps = some (h, w)) :
    w.forest.size = h.births.length ∧
    (∀ x c, w.forest.get? x = some c → h.Explains x w.now c) ∧
    (∀ x later h' w', follow (h, w) later = some (h', w') → x < w.forest.size →
      (w.forest.status x w.now).isSome → (w'.forest.status x w'.now).isSome) ∧
    (∀ x a, x < w.forest.size → Above h.parents x a → (w.forest.status a w.now).isSome →
      (w.forest.status x w.now).isSome) ∧
    (∀ x s w' o, x < w.forest.size → w.step s = some (w', o) →
      (∀ i, s = .cancel i → ¬ Above h.parents x i) →
      (∀ d ∈ h.limits x, w.now < d → w'.now < d) →
      w'.forest.status x w'.now = w.forest.status x w.now) := by
  have hf : Fits h w.forest w.now := fits_follow Fits.empty hs
  rw [hf.size]
  refine ⟨rfl, fun x c hc => hf.explains hc,
    fun x later h' w' hl hx hover => isSome_status_follow hf hx hover hl, ?_, ?_⟩
  · intro x a hx ha hover
    have hlt := (hf.ordered.le_of_above ha).trans_lt hx
    rw [hf.status_isSome_iff hx]
    obtain hc | ⟨d, hd, hle⟩ := (hf.status_isSome_iff hlt).mp hover
    · exact .inl (hc.of_above ha)
    · exact .inr ⟨d, limits_subset ha hd, hle⟩
  · intro x s w' o hx hs hcancel hcome
    obtain ⟨hx', hlimits, hcancelled⟩ := note_keeps hf.ordered hx w.now s
    refine hf.status_congr (hf.step hs) hx hx' hlimits ?_ ?_
    · rw [hcancelled]
      refine or_iff_right ?_
      rintro ⟨i, hi, -, ha⟩
      exact hcancel i hi ha
    · intro d hd
      refine ⟨fun hle => ?_, fun hle => hle.trans (le_of_step hs)⟩
      exact not_lt.mp fun hlt => (hcome d hd hlt).not_ge hle

/-- A context, one derived from it for a minute and one that is derived from that until the instant
20. At 20 the third is late; then the first is cancelled, and the others with it. -/
theorem explains_of_follow_three :
    ∃ h w, follow (.empty, .initial)
        [.plant, .derive 0 (.ofSecs 60), .deriveUntil 1 20, .pass 20, .cancel 0] = some (h, w) ∧
      w.forest.status 2 20 = some .cancelled ∧
      w.forest.get? 2 = some ⟨some 20, some 20⟩ ∧ h.Explains 2 20 ⟨some 20, some 20⟩ := by
  have hminute : Clock.after? 0 (.ofSecs 60) = some 60000 := by decide
  have hrun : follow (.empty, .initial)
      [.plant, .derive 0 (.ofSecs 60), .deriveUntil 1 20, .pass 20, .cancel 0] =
      some (⟨[⟨none, none⟩, ⟨some 0, some 60000⟩, ⟨some 1, some 20⟩], [0]⟩,
        ⟨20, ⟨[⟨none, ⟨none, some 20⟩⟩, ⟨some 0, ⟨some 60000, some 20⟩⟩,
          ⟨some 1, ⟨some 20, some 20⟩⟩]⟩, []⟩) := by
    simp only [follow, step, note, initial, hminute, Option.bind_eq_bind, Option.bind_some]
    cbv
  exact ⟨_, _, hrun, rfl, rfl, (explains_of_follow _ _ _ hrun).2.1 2 _ rfl⟩

end Watch

end Context

end SqlGate
