import Mathlib.Order.Basic
import SqlGate.Proofs.Policy.Walk

/-!
# Policies in order

A policy is below another one if that one allows at least as much: every switch that is on stays
on, and it is not read-only unless this one is. What a text asks for, or that its form is wrong,
does not depend on a policy (`demands`), so all policies answer the same demands in the same order
(`check_eq_demands`). From this it follows how the verdicts of two policies on a text are related.
-/

namespace SqlGate.Policy

open Sql Statement

/-! ## What a text asks for -/

/-- What a utility statement asks of a policy. -/
def Utility.demand : Utility → Demand
  | .anonymousBlock => ⟨none, some .anonymousBlock⟩
  | .resetAll => ⟨some .resetAll, some .reset⟩
  | .reset target =>
    ⟨if accessVariables.contains target then some (.reset target) else none, some .reset⟩
  | .discard => ⟨none, none⟩

/-- What a text asks of a policy, in the order in which it is answered, or what is wrong with its
form. -/
def demands (sql : String) : Except Refusal (List Demand) :=
  match tokenize sql with
  | .error why => .error (.unreadable why)
  | .ok ts =>
    match Utility.scan ts with
    | some (n, u) => if 1 < n then .error (.several n) else .ok [u.demand]
    | none =>
      match ofTokens? ts with
      | .error f => .error (.unreadable ("sql parser error: " ++ f.message))
      | .ok [] => .error .empty
      | .ok [s] => .ok ((Node.statement s).walk.map demandOf)
      | .ok ss => .error (.several ss.length)

/-- A refusal is about the form of a text. -/
inductive Refusal.IsFormal : Refusal → Prop where
  | unreadable (why : String) : IsFormal (.unreadable why)
  | empty : IsFormal .empty
  | several (count : Nat) : IsFormal (.several count)

theorem isFormal_of_demands {sql : String} {why : Refusal} (h : demands sql = .error why) :
    why.IsFormal := by
  unfold demands at h
  split at h
  · cases h
    exact .unreadable _
  · split at h
    · split at h
      · cases h
        exact .several _
      · cases h
    · split at h
      · cases h
        exact .unreadable _
      · cases h
        exact .empty
      · cases h
      · cases h
        exact .several _

/-! ## The order -/

/-- A policy is below another one that allows at least as much. -/
instance : Preorder Rules where
  le r r' := (∀ c, r.allows c = true → r'.allows c = true) ∧
    (r'.readOnly = true → r.readOnly = true)
  le_refl _ := ⟨fun _ h => h, fun h => h⟩
  le_trans _ _ _ h h' := ⟨fun c hc => h'.1 c (h.1 c hc), fun hr => h.2 (h'.2 hr)⟩

namespace Rules

variable {r r' : Rules} {sql : String} {d : Demand}

theorem permit_mono (h : r ≤ r') (hd : r.permit d = .ok ()) : r'.permit d = .ok () := by
  rw [permit_eq_ok_iff] at hd ⊢
  obtain ⟨hescape, hclass⟩ := hd
  refine ⟨fun he => ?_, fun c hc => h.1 c (hclass c hc)⟩
  by_contra hr
  have hread : r.readOnly = true := h.2 (Bool.not_eq_false _ ▸ hr)
  exact absurd (hescape he) (by simp [hread])

/-! ## The verdict -/

variable (r) in
theorem checkUtility_eq_permit (u : Utility) : r.checkUtility u = r.permit u.demand := by
  cases u with
  | anonymousBlock => simp [checkUtility, permit, Utility.demand]
  | resetAll => simp [checkUtility, permit, Utility.demand]
  | discard => rfl
  | reset target =>
      rw [checkUtility, permit, Utility.demand]
      by_cases ht : accessVariables.contains target
      · rw [if_pos ht, if_pos ht]
        simp
      · rw [if_neg ht, if_neg ht]
        simp

variable (r) in
theorem checkStatement_eq_permit (s : Statement) :
    r.checkStatement s = ((Node.statement s).walk.map demandOf).forM r.permit := by
  have hwalk : r.checkStatement s = (Node.statement s).walk.forM r.own :=
    checkNode_eq_walk r (.statement s)
  rw [hwalk]
  induction (Node.statement s).walk with
  | nil => rfl
  | cons x xs ih =>
      change (r.own x >>= fun _ => xs.forM r.own) = _
      rw [ih]
      rfl

variable (r) in
/-- A policy answers the demands of a text, if its form is right. -/
theorem check_eq_demands (sql : String) :
    r.check sql = demands sql >>= fun ds => ds.forM r.permit := by
  unfold check demands
  cases tokenize sql with
  | error why => rfl
  | ok ts =>
      dsimp only
      cases Utility.scan ts with
      | some x =>
          obtain ⟨n, u⟩ := x
          dsimp only
          by_cases hn : 1 < n
          · rw [if_pos hn, if_pos hn]
            rfl
          · rw [if_neg hn, if_neg hn, checkUtility_eq_permit]
            exact (bind_pure_unit (m := Except Refusal)).symm
      | none =>
          dsimp only
          cases ofTokens? ts with
          | error f => rfl
          | ok ss =>
              match ss with
              | [] => rfl
              | [s] => exact r.checkStatement_eq_permit s
              | _ :: _ :: _ => rfl

theorem check_eq_ok_iff_permit :
    r.check sql = .ok () ↔ ∃ ds, demands sql = .ok ds ∧ ∀ d ∈ ds, r.permit d = .ok () := by
  rw [check_eq_demands]
  cases demands sql with
  | error why =>
      constructor
      · exact fun h => nomatch h
      · rintro ⟨ds, h, -⟩
        cases h
  | ok ds =>
      refine Iff.trans (forM_eq_ok_iff r.permit ds) ?_
      constructor
      · exact fun h => ⟨ds, rfl, h⟩
      · rintro ⟨ds', ⟨⟩, h⟩
        exact h

theorem check_eq_error {why : Refusal} (h : r.check sql = .error why) :
    demands sql = .error why ∨ ∃ d, r.permit d = .error why := by
  rw [check_eq_demands] at h
  cases hd : demands sql with
  | error why' =>
      rw [hd] at h
      exact .inl (congrArg _ (Except.error.inj h))
  | ok ds =>
      rw [hd] at h
      obtain ⟨-, d, -, -, -, hperm⟩ := (forM_eq_error_iff r.permit ds why).1 h
      exact .inr ⟨d, hperm⟩

theorem demands_of_check {why : Refusal} (hw : why.IsFormal) (h : r.check sql = .error why) :
    demands sql = .error why := by
  refine (check_eq_error h).resolve_right ?_
  rintro ⟨d, hd⟩
  rcases permit_eq_error r hd with ⟨e, rfl⟩ | ⟨c, rfl, -⟩
  · cases hw
  · cases hw

theorem allows_of_check_blocked {c : StatementClass} (h : r.check sql = .error (.blocked c)) :
    r.allows c = false := by
  rcases check_eq_error h with hd | ⟨d, hd⟩
  · cases isFormal_of_demands hd
  · rcases permit_eq_error r hd with ⟨e, he⟩ | ⟨c', hc, hallows⟩
    · cases he
    · cases hc
      exact hallows

@[simp] theorem set_allows_self (r : Rules) (c : StatementClass) (b : Bool) :
    (r.set c b).allows c = b := by
  simp [set]

theorem mem_enabledToggles_iff (r : Rules) (c : StatementClass) :
    c.toggle ∈ r.enabledToggles ↔ r.allows c = true := by
  have htoggle : ∀ c', c'.toggle = c.toggle → c' = c := by
    intro c'
    cases c <;> cases c' <;> simp [StatementClass.toggle]
  simp only [enabledToggles, List.mem_map, List.mem_filter, StatementClass.mem_all, true_and]
  constructor
  · rintro ⟨c', hallows, ht⟩
    rwa [htoggle c' ht] at hallows
  · exact fun h => ⟨c, h, rfl⟩

/-- **The verdicts of two policies.** A text that a policy accepts is accepted by every policy above
it. What is wrong with the form of a text, one policy says if all of them do. And the switch that a
refusal names is off; with it on, and all else as it is, the text is not refused for that class. -/
theorem check_monotone (sql : String) :
    (∀ r r' : Rules, r ≤ r' → r.check sql = .ok () → r'.check sql = .ok ()) ∧
    (∀ why : Refusal, why.IsFormal →
      ((∃ r : Rules, r.check sql = .error why) ↔ ∀ r : Rules, r.check sql = .error why)) ∧
    ∀ (r : Rules) (c : StatementClass), r.check sql = .error (.blocked c) →
      r.allows c = false ∧ c.toggle ∉ r.enabledToggles ∧
        (r.set c true).check sql ≠ .error (.blocked c) := by
  refine ⟨?_, ?_, ?_⟩
  · intro r r' hle h
    rw [check_eq_ok_iff_permit] at h ⊢
    obtain ⟨ds, hds, hall⟩ := h
    exact ⟨ds, hds, fun d hd => permit_mono hle (hall d hd)⟩
  · intro why hw
    constructor
    · rintro ⟨r, h⟩ r'
      rw [check_eq_demands, demands_of_check hw h]
      rfl
    · exact fun h => ⟨strict, h strict⟩
  · intro r c h
    have hoff : r.allows c = false := allows_of_check_blocked h
    refine ⟨hoff, ?_, ?_⟩
    · rw [mem_enabledToggles_iff, hoff]
      exact Bool.false_ne_true
    · intro hset
      have hon := allows_of_check_blocked hset
      rw [set_allows_self] at hon
      cases hon

end Rules

end SqlGate.Policy
