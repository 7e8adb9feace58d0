import Mathlib.Order.MinMax
import Mathlib.Tactic.ByContra
import SqlGate.Context

/-!
# Waiting in a context

## Waiting without a horizon

`Context.await` without a horizon says how waiting for work comes out: the work is done if its
instant comes strictly before the end of the context, and the context ends it otherwise. Waiting
comes to an end at all if the context has one. What is done in time finds the context still live.
-/

namespace SqlGate

namespace Clock

/-- An instant that is the earlier of two comes no later than any bound on one of them. -/
theorem lt_earlier_iff (t : Instant) (a b : Option Instant) :
    (∀ e, earlier a b = some e → t < e) ↔
      (∀ e, a = some e → t < e) ∧ ∀ e, b = some e → t < e := by
  cases a with
  | none => simp [earlier]
  | some x =>
      cases b with
      | none => simp [earlier]
      | some y => simp [earlier]

theorem hasCome_eq_false_iff (a : Option Instant) (now : Instant) :
    hasCome a now = false ↔ ∀ e, a = some e → now < e := by
  cases a with
  | none => simp [hasCome]
  | some x => simp [hasCome]

theorem isWithin_none (t : Instant) : isWithin none t = true := rfl

end Clock

namespace Context

/-- A context is live before its end, and only then. -/
theorem status_eq_none_iff (c : Context) (now : Instant) :
    c.status now = none ↔ ∀ e, c.endsAt = some e → now < e := by
  unfold status endsAt
  rw [Clock.lt_earlier_iff, ← Clock.hasCome_eq_false_iff, ← Clock.hasCome_eq_false_iff]
  cases Clock.hasCome c.cancelledAt now <;> cases Clock.hasCome c.deadline now <;> simp

/-- A context that is live at an instant was live before it. -/
theorem status_eq_none_of_le (c : Context) {t t' : Instant} (h : t ≤ t')
    (hc : c.status t' = none) : c.status t = none := by
  rw [status_eq_none_iff] at hc ⊢
  intro e he
  exact lt_of_le_of_lt h (hc e he)

/-- A context is over from its end on. -/
theorem status_endsAt_isSome (c : Context) {e : Instant} (h : c.endsAt = some e) :
    (c.status e).isSome := by
  by_contra hc
  rw [Option.not_isSome_iff_eq_none, status_eq_none_iff] at hc
  exact lt_irrefl e (hc e h)

/-- Work is done in time if the context is live and the work ends strictly before it. -/
theorem await_eq_done_iff (c : Context) (now : Instant) (due : Option Instant) (t : Instant) :
    c.await none now due = some (t, none) ↔
      c.status now = none ∧ due = some t ∧ ∀ e, c.endsAt = some e → t < e := by
  unfold await race
  cases hs : c.status now with
  | some why => simp [Clock.isWithin]
  | none =>
      cases he : c.endsAt with
      | none => cases due with
        | none => simp
        | some d => simp [Clock.isWithin]
      | some e =>
          obtain ⟨why, hwhy⟩ := Option.isSome_iff_exists.1 (c.status_endsAt_isSome he)
          cases due with
          | none => simp [Clock.isWithin, hwhy]
          | some d =>
              by_cases hd : e ≤ d
              · have hlt : d = t → e ≤ t := fun hx => hx ▸ hd
                simpa [Clock.isWithin, hwhy, hd] using hlt
              · have hlt : d = t → t < e := fun hx => hx ▸ not_le.1 hd
                simpa [Clock.isWithin, hd] using hlt

/-- What is done in time finds its context live. -/
theorem status_of_await_done {c : Context} {now t : Instant} {due : Option Instant}
    (h : c.await none now due = some (t, none)) : c.status t = none :=
  (c.status_eq_none_iff t).2 ((c.await_eq_done_iff now due t).1 h).2.2

/-- In a context that ends, waiting comes out. -/
theorem await_isSome {c : Context} (now : Instant) (due : Option Instant)
    (h : c.endsAt.isSome) : (c.await none now due).isSome := by
  obtain ⟨e, he⟩ := Option.isSome_iff_exists.1 h
  unfold await race
  cases c.status now with
  | some why => simp [Clock.isWithin]
  | none =>
      rw [he]
      cases due with
      | none => simp [Clock.isWithin]
      | some d =>
          by_cases hd : e ≤ d
          · simp [Clock.isWithin, hd]
          · simp [Clock.isWithin, hd]

/-- Only what never comes is waited for without end, and only in a context that never ends. -/
theorem await_eq_none_iff {c : Context} {now : Instant} {due : Option Instant} :
    c.await none now due = none ↔ c.endsAt = none ∧ due = none := by
  by_cases he : c.endsAt = none
  · have hlive : c.status now = none := (c.status_eq_none_iff now).2 (by simp [he])
    unfold await race
    rw [hlive, he]
    cases due with
    | none => simp
    | some d => simp [Clock.isWithin_none]
  · have hcomes := await_isSome now due (Option.isSome_iff_ne_none.2 he)
    exact iff_of_false (Option.isSome_iff_ne_none.1 hcomes) fun h => he h.1

/-- A context with a deadline of its own ends. -/
theorem endsAt_within_isSome (c : Context) (t : Instant) :
    (c.within (some t)).endsAt.isSome := by
  cases hc : c.cancelledAt <;> cases hd : c.deadline <;>
    simp [endsAt, within, Clock.earlier, hc, hd]

theorem endsAt_within_eq_none_iff {c : Context} {limit : Option Instant} :
    (c.within limit).endsAt = none ↔ c.endsAt = none ∧ limit = none := by
  cases hc : c.cancelledAt <;> cases hd : c.deadline <;> cases limit <;>
    simp [endsAt, within, Clock.earlier, hc, hd]

/-- A derived context that is live comes from one that is. -/
theorem status_of_within {c : Context} {limit : Option Instant} {now : Instant}
    (h : (c.within limit).status now = none) : c.status now = none := by
  rw [status_eq_none_iff] at h ⊢
  unfold endsAt at h ⊢
  rw [Clock.lt_earlier_iff] at h ⊢
  exact ⟨h.1, ((Clock.lt_earlier_iff now c.deadline limit).1 h.2).1⟩

@[simp] theorem within_none (c : Context) : c.within none = c := by
  unfold within
  cases hd : c.deadline <;> simp [Clock.earlier, ← hd]

end Context

end SqlGate

/-!
## What comes in a context

Waiting with a horizon comes out as waiting without one does, if that is by the horizon. So what is
waited for either comes (`Context.Comes`), and then by the end of the context, or is still to come
at the horizon, and the context is then live (`Context.lt_of_await_eq_none`).
-/

namespace SqlGate

theorem Clock.isWithin_some {h t : Instant} : isWithin (some h) t = true ↔ t ≤ h := by
  simp [isWithin]

namespace Context

variable {c : Context} {horizon limit due : Option Instant} {h now t e : Instant}
  {o : Option Ending}

/-- Waiting up to a horizon comes out as waiting does, if that is before the horizon. -/
theorem await_eq_some_iff {x : Instant × Option Ending} :
    c.await horizon now due = some x ↔
      c.await none now due = some x ∧ Clock.isWithin horizon x.1 = true := by
  unfold await
  simp [Option.filter_eq_some_iff, Clock.isWithin_none]

/-- What is not done in time is given up at the end of the context, or now if that has passed. -/
theorem await_late {why : Ending} (hw : c.await none now due = some (t, some why)) :
    t = now ∨ c.status now = none ∧ c.endsAt = some t := by
  unfold await at hw
  cases hs : c.status now with
  | some e =>
      have hnow : now = t ∧ e = why := by simpa [hs, Clock.isWithin_none] using hw
      exact .inl hnow.1.symm
  | none =>
      rw [hs] at hw
      unfold race at hw
      cases he : c.endsAt with
      | none => cases hd : due <;> simp [he, hd] at hw
      | some e =>
          refine .inr ⟨rfl, congrArg some ?_⟩
          cases hd : due with
          | none =>
              have hrace : e = t ∧ c.status e = some why := by
                simpa [he, hd, Clock.isWithin_none] using hw
              exact hrace.1
          | some d =>
              by_cases hle : e ≤ d
              · have hrace : e = t ∧ c.status e = some why := by
                  simpa [he, hd, hle, Clock.isWithin_none] using hw
                exact hrace.1
              · simp [he, hd, hle] at hw

/-- A derived context ends no later than the one it comes from. -/
theorem endsAt_within_le (ht : (c.within limit).endsAt = some t) (he : c.endsAt = some e) :
    t ≤ e := by
  by_contra hlt
  have hlive : (c.within limit).status e = none := by
    rw [status_eq_none_iff]
    intro t' ht'
    obtain rfl := Option.some.inj (ht.symm.trans ht')
    exact not_le.1 hlt
  have hover := c.status_endsAt_isSome he
  rw [status_of_within hlive] at hover
  cases hover

theorem status_of_cancel (hs : (c.cancel now).status t = none) : c.status t = none := by
  rw [status_eq_none_iff] at hs ⊢
  unfold endsAt cancel at hs
  rw [Clock.lt_earlier_iff, Clock.lt_earlier_iff] at hs
  exact (Clock.lt_earlier_iff t _ _).2 ⟨hs.1.1, hs.2⟩

theorem lt_cancelledAt (hs : c.status t = none) (hc : c.cancelledAt = some e) : t < e :=
  ((Clock.lt_earlier_iff t _ _).1 ((c.status_eq_none_iff t).1 hs)).1 e hc

/-- What is waited for comes at an instant: not before now, within the horizon, and by the end of
the context unless that has passed. -/
structure Comes (c : Context) (horizon : Option Instant) (now t : Instant) : Prop where
  le : now ≤ t
  within : Clock.isWithin horizon t = true
  byEnd : ∀ e, c.endsAt = some e → t ≤ max now e

theorem comes_of_await (hdue : ∀ d, due = some d → now ≤ d)
    (hw : (c.within limit).await horizon now due = some (t, o)) : c.Comes horizon now t := by
  obtain ⟨hw, hwithin⟩ := await_eq_some_iff.1 hw
  cases o with
  | none =>
      obtain ⟨-, hd, -⟩ := (await_eq_done_iff _ now due t).1 hw
      have hlive : c.status t = none := status_of_within (status_of_await_done hw)
      have hend := (status_eq_none_iff c t).1 hlive
      exact ⟨hdue t hd, hwithin, fun e he => le_max_of_le_right (hend e he).le⟩
  | some why =>
      rcases await_late hw with rfl | ⟨hs, ht⟩
      · exact ⟨le_rfl, hwithin, fun e _ => le_max_left t e⟩
      · exact ⟨((status_eq_none_iff _ now).1 hs t ht).le, hwithin,
          fun e he => le_max_of_le_right (endsAt_within_le ht he)⟩

theorem await_of_live (hs : c.status now = none) : c.await none now due = c.race due := by
  rw [await, hs]
  cases c.race due <;> rfl

theorem race_fst (c : Context) (due : Option Instant) :
    (c.race due).map Prod.fst = Clock.earlier c.endsAt due := by
  unfold race
  cases c.endsAt with
  | none => cases due <;> rfl
  | some e =>
      cases due with
      | none => rfl
      | some d => by_cases hle : e ≤ d <;> simp [Clock.earlier, hle, le_of_not_ge]

/-- What does not come by a horizon is still to come, and so is the end of the context. -/
theorem lt_of_await_eq_none (hle : now ≤ h)
    (hw : (c.within limit).await (some h) now due = none) :
    (∀ d, due = some d → h < d) ∧ ∀ e, c.endsAt = some e → h < e := by
  have hlater : ∀ x, (c.within limit).await none now due = some x → h < x.1 := by
    intro x hx
    by_contra hlt
    have hc : (c.within limit).await (some h) now due = some x :=
      await_eq_some_iff.2 ⟨hx, by simpa [Clock.isWithin] using hlt⟩
    rw [hw] at hc
    cases hc
  cases hs : (c.within limit).status now with
  | some why =>
      have hnow : h < now := hlater (now, some why) (by simp [await, hs, Clock.isWithin_none])
      exact absurd hle (not_le.2 hnow)
  | none =>
      rw [await_of_live hs] at hlater
      have hfirst : ∀ t, Clock.earlier (c.within limit).endsAt due = some t → h < t := by
        intro t ht
        rw [← race_fst] at ht
        obtain ⟨x, hx, rfl⟩ := Option.map_eq_some_iff.1 ht
        exact hlater x hx
      obtain ⟨hend, hdue⟩ := (Clock.lt_earlier_iff h _ due).1 hfirst
      have hlive : (c.within limit).status h = none := (status_eq_none_iff _ h).2 hend
      exact ⟨hdue, (status_eq_none_iff c h).1 (status_of_within hlive)⟩

end Context

end SqlGate
