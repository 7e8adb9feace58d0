import Mathlib.Tactic.ByContra
import SqlGate.Proofs.Policy.Single
import SqlGate.Proofs.Policy.Walk

/-!
# Nested statements

A policy does not come to every node of a tree: it goes into no expression, no table expression, no
query of a statement of another kind and no body of a routine. A statement that changes a whole
table is refused wherever the policy comes to it, and what stands below a node that it does not
come to is not judged at all. So the nesting of a statement is safe just as far as `Node.parts` goes
(`check_nested_iff`).
-/

namespace SqlGate

namespace Sql.Node

/-- A node stands below one that a policy does not go into. -/
def Hidden (n m : Node) : Prop :=
  ∃ k l, n.Reaches k ∧ l ∈ k.children ∧ l ∉ k.parts ∧ l.Contains m

/-- What stands in a tree is come to, or hidden. -/
theorem Contains.reaches_or_hidden {n m : Node} (h : n.Contains m) :
    n.Reaches m ∨ n.Hidden m := by
  induction h using Relation.ReflTransGen.head_induction_on with
  | refl => exact .inl .refl
  | @head n k hk hcont ih =>
      by_cases hp : k ∈ n.parts
      · rcases ih with ih | ⟨k', l, hk', hl, hnot, hm⟩
        · exact .inl (.head hp ih)
        · exact .inr ⟨k', l, .head hp hk', hl, hnot, hm⟩
      · exact .inr ⟨n, k, .refl, hk, hp, hcont⟩

end Sql.Node

namespace Policy

open Sql Statement

/-- A statement deletes or changes all rows of a table, and is of that class. -/
inductive WholeTable : StatementClass → Statement → Prop where
  | delete (relations : List Relation) (operands : List Expr) :
    WholeTable .deleteWithoutWhere (.delete none relations operands)
  | update (relations : List Relation) (operands : List Expr) :
    WholeTable .updateWithoutWhere (.update none relations operands)

/-- A text is read as one statement. -/
def ReadAs (sql : String) (ts : List Located) (s : Statement) : Prop :=
  tokenize sql = .ok ts ∧ ofTokens? ts = .ok [s]

/-- What is read from a text, from a test that it passes. -/
theorem exists_readAs {sql : String} {p : List Located → Statement → Bool}
    (h : (match tokenize sql with
      | .ok ts => match ofTokens? ts with
        | .ok [s] => p ts s
        | _ => false
      | _ => false) = true) : ∃ ts s, ReadAs sql ts s ∧ p ts s = true := by
  split at h
  · split at h
    · exact ⟨_, _, ⟨‹_›, ‹_›⟩, h⟩
    · cases h
  · cases h

/-- The policy that denies one class and nothing else. -/
def only (c : StatementClass) : Rules := ⟨false, fun c' => c' ≠ c⟩

theorem WholeTable.class? {c : StatementClass} {s : Statement} (h : WholeTable c s) :
    class? s = some c := by
  cases h <;> rfl

/-- The statements of such a class change a whole table. -/
theorem WholeTable.of_class? {c : StatementClass} {s s' : Statement} (h : WholeTable c s)
    (hs' : Policy.class? s' = some c) : WholeTable c s' := by
  unfold Policy.class? at hs'
  split at hs'
  case h_1 relations operands =>
    cases hs'
    exact .update relations operands
  case h_2 relations operands =>
    cases hs'
    exact .delete relations operands
  case h_8 v =>
    split at hs'
    · cases hs'
      cases h
    · cases hs'
  all_goals
    cases hs'
    try cases h

namespace Rules

variable (r : Rules) {c : StatementClass} {s : Statement}

/-- A statement of a class that is denied breaks its own rule. -/
theorem own_of_class? (hs : class? s = some c) (hc : r.allows c = false) : r.own s ≠ .ok () := by
  rw [ne_eq, own_eq_ok_iff]
  intro h
  exact Bool.false_ne_true (hc.symm.trans (h.2 c hs))

/-- Where one class is denied, the statements of that class break their own rules, and no others. -/
theorem own_only_eq_ok_iff (c : StatementClass) (s : Statement) :
    (only c).own s = .ok () ↔ class? s ≠ some c := by
  rw [own_eq_ok_iff]
  constructor
  · intro h hs
    exact absurd (h.2 c hs) (by simp [only])
  · intro h
    refine ⟨fun _ => rfl, fun c' hc' => ?_⟩
    have hne : c' ≠ c := fun e => h (e ▸ hc')
    simpa [only] using hne

/-- A text that is read as one statement is refused as a utility statement, if there is one among
its groups, and else if something on the walk breaks its own rule. -/
theorem check_ne_ok_iff {sql : String} {ts : List Located} (h : ReadAs sql ts s) :
    r.check sql ≠ .ok () ↔
      match Utility.scan ts with
      | some (n, u) => 1 < n ∨ r.checkUtility u ≠ .ok ()
      | none => ∃ s', (Node.statement s).Reaches (.statement s') ∧ r.own s' ≠ .ok () := by
  obtain ⟨ht, hs⟩ := h
  unfold check
  rw [ht]
  dsimp only
  cases Utility.scan ts with
  | some x =>
      obtain ⟨n, u⟩ := x
      dsimp only
      by_cases hn : 1 < n
      · simp [hn]
      · simp [hn]
  | none =>
      dsimp only
      rw [hs]
      change r.checkNode (.statement s) ≠ .ok () ↔ _
      rw [ne_eq, checkNode_eq_walk, forM_eq_ok_iff]
      simp only [Node.mem_walk_iff, Classical.not_forall, exists_prop, ne_eq]

/-- **How far nesting is safe.** A statement that changes a whole table stands in a text that is
read as one statement, and its class is denied. It is come to or hidden. Unless the text is taken
for a utility statement, it is refused if that statement is come to, or if something else on the
walk breaks its own rule; and all policies that deny the class refuse it just if a statement of that
class is come to. -/
theorem check_nested_iff {sql : String} {ts : List Located} {d : Statement}
    (hread : ReadAs sql ts s) (hd : WholeTable c d)
    (hin : (Node.statement s).Contains (.statement d)) (hc : r.allows c = false) :
    ((Node.statement s).Reaches (.statement d) ∨ (Node.statement s).Hidden (.statement d)) ∧
    (r.check sql ≠ .ok () ↔
      match Utility.scan ts with
      | some (n, u) => 1 < n ∨ r.checkUtility u ≠ .ok ()
      | none => (Node.statement s).Reaches (.statement d) ∨
          ∃ s', (Node.statement s).Reaches (.statement s') ∧ r.own s' ≠ .ok ()) ∧
    (Utility.scan ts = none →
      ((∀ r' : Rules, r'.allows c = false → r'.check sql ≠ .ok ()) ↔
        ∃ d', WholeTable c d' ∧ (Node.statement s).Reaches (.statement d'))) := by
  refine ⟨hin.reaches_or_hidden, ?_, ?_⟩
  · rw [check_ne_ok_iff r hread]
    cases Utility.scan ts with
    | some x => rfl
    | none =>
        refine ⟨.inr, ?_⟩
        rintro (h | h)
        · exact ⟨d, h, own_of_class? r hd.class? hc⟩
        · exact h
  · intro hu
    constructor
    · intro h
      have honly := h (only c) (by simp [only])
      rw [check_ne_ok_iff _ hread, hu] at honly
      obtain ⟨s', hs', hne⟩ := honly
      have hclass : class? s' = some c := by
        by_contra hnot
        exact hne ((own_only_eq_ok_iff c s').2 hnot)
      exact ⟨s', hd.of_class? hclass, hs'⟩
    · rintro ⟨d', hd', hreach⟩ r' hc'
      rw [check_ne_ok_iff r' hread, hu]
      exact ⟨d', hreach, own_of_class? r' hd'.class? hc'⟩

/-! ## A query of another statement -/

/-- The deletion of all rows in the first named query of the query of another statement. -/
def namedDelete? : Statement → Option Statement
  | .other _ _ (.mk (.mk _ (.change (.delete none relations operands)) _ :: _) _ _ :: _) _ =>
    some (.delete none relations operands)
  | _ => none

theorem contains_of_namedDelete? {s d : Statement} (h : namedDelete? s = some d) :
    WholeTable .deleteWithoutWhere d ∧ (Node.statement s).Contains (.statement d) := by
  unfold namedDelete? at h
  split at h
  · rename_i kind operands inner relations operands' operands₁ named b operands₂ queries bodies
    cases h
    let change : QueryBody := .change (.delete none relations operands')
    let outer : Query := .mk (.mk inner change operands₁ :: named) b operands₂
    refine ⟨.delete relations operands', ?_⟩
    refine .head (b := .query outer) (by simp [Node.children, outer, change]) ?_
    refine .head (b := .query (.mk inner change operands₁)) (by simp [Node.children, outer]) ?_
    refine .head (b := .body change) (by simp [Node.children]) ?_
    exact .single (by simp [Node.children, change])
  · cases h

theorem readAs_created :
    ∃ ts s, ReadAs "CREATE TABLE x AS WITH d AS (DELETE FROM t RETURNING 1) SELECT * FROM d" ts s ∧
      ((namedDelete? s).isSome && (Utility.scan ts).isNone) = true :=
  exists_readAs (by decide +kernel)

theorem check_created : strict.check
    "CREATE TABLE x AS WITH d AS (DELETE FROM t RETURNING 1) SELECT * FROM d" = .ok () := by
  decide +kernel

/-- The deletion in the query that a table is created from is hidden, and the text is accepted. -/
theorem check_nested_iff_created :
    ∃ ts s d, ReadAs "CREATE TABLE x AS WITH d AS (DELETE FROM t RETURNING 1) SELECT * FROM d" ts s ∧
      WholeTable .deleteWithoutWhere d ∧ (Node.statement s).Contains (.statement d) ∧
      (Node.statement s).Hidden (.statement d) := by
  obtain ⟨ts, s, hread, hp⟩ := readAs_created
  rw [Bool.and_eq_true, Option.isSome_iff_exists, Option.isNone_iff_eq_none] at hp
  obtain ⟨⟨d, hs⟩, hu⟩ := hp
  obtain ⟨hd, hin⟩ := contains_of_namedDelete? hs
  obtain ⟨hor, hiff, -⟩ := strict.check_nested_iff hread hd hin rfl
  refine ⟨ts, s, d, hread, hd, hin, hor.resolve_left fun hreach => ?_⟩
  rw [hu] at hiff
  exact hiff.2 (.inl hreach) check_created

/-- A nested statement that changes a whole table may be accepted where that is denied. -/
theorem check_accepts_nested :
    ∃ ts s d, ReadAs "CREATE TABLE x AS WITH d AS (DELETE FROM t RETURNING 1) SELECT * FROM d" ts s ∧
      WholeTable .deleteWithoutWhere d ∧ (Node.statement s).Contains (.statement d) ∧
      strict.allows .deleteWithoutWhere = false ∧
      strict.check "CREATE TABLE x AS WITH d AS (DELETE FROM t RETURNING 1) SELECT * FROM d" =
        .ok () := by
  obtain ⟨ts, s, hread, hp⟩ := readAs_created
  rw [Bool.and_eq_true, Option.isSome_iff_exists] at hp
  obtain ⟨⟨d, hs⟩, -⟩ := hp
  obtain ⟨hd, hin⟩ := contains_of_namedDelete? hs
  exact ⟨ts, s, d, hread, hd, hin, rfl, check_created⟩

end Rules

end Policy

end SqlGate
