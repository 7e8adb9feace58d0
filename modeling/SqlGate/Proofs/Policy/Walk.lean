import Mathlib.Logic.Relation
import SqlGate.Policy.Check
import SqlGate.Sql.Tree

/-!
# The walk of a policy

Whatever a rule looks at, it asks a policy for at most two things: to let a statement out of
read-only mode, and to allow the class of the statement. A `Demand` holds the two, `Rules.permit`
answers it, and what it answers is never anything about the form of a text.

The kinds of node of a tree refer to one another, so what is said of a whole tree is said here of
one type that holds all of them (`Node`). `Node.children` are the nodes right below a node, wherever
the grammar has a place for one, and `Node.Contains` is the relation that they span.

A policy looks at some of the nodes of a tree, in a fixed order. `Node.parts` says where it goes
from a node, `Node.walk` lists the statements that it meets, and `Rules.own` is the rule on one of
them, whatever it contains. The verdict on a tree is the one of the first statement on the walk
that breaks its own rule: the three checks, which call one another, are one step over `parts`
(`checkNode_eq`), and the rest follows by induction on nodes.
-/

/-! ## Demands on a policy -/

namespace SqlGate.Policy

/-- What something asks of a policy by itself. -/
structure Demand where
  escape : Option Escape
  ofClass : Option StatementClass

namespace Rules

/-- The answer to a demand: nothing must get out of read-only mode, and a class must be allowed. -/
def permit (r : Rules) (d : Demand) : Verdict := do
  d.escape.forM r.refuseEscape
  d.ofClass.forM r.require

variable (r : Rules)

theorem refuseEscape_eq_ok_iff (e : Escape) :
    r.refuseEscape e = .ok () ↔ r.readOnly = false := by
  unfold refuseEscape
  cases r.readOnly <;> simp

theorem refuseEscape_eq_error {e : Escape} {why : Refusal} (h : r.refuseEscape e = .error why) :
    why = .readOnly e := by
  unfold refuseEscape at h
  cases hr : r.readOnly <;> simp_all

theorem require_eq_ok_iff (c : StatementClass) : r.require c = .ok () ↔ r.allows c = true := by
  unfold require
  cases r.allows c <;> simp

theorem require_eq_error {c : StatementClass} {why : Refusal} (h : r.require c = .error why) :
    why = .blocked c ∧ r.allows c = false := by
  unfold require at h
  cases hr : r.allows c <;> simp_all

/-- A demand is met if it does not get out of a read-only mode that there is, and if its class is
allowed. -/
theorem permit_eq_ok_iff (d : Demand) :
    r.permit d = .ok () ↔
      (d.escape.isSome → r.readOnly = false) ∧ ∀ c, d.ofClass = some c → r.allows c = true := by
  obtain ⟨escape, ofClass⟩ := d
  have hclass : ofClass.forM r.require = .ok () ↔ ∀ c, ofClass = some c → r.allows c = true := by
    cases ofClass with
    | none => exact ⟨fun _ c hc => (nomatch hc), fun _ => rfl⟩
    | some c =>
        refine Iff.trans (r.require_eq_ok_iff c) ⟨?_, fun h => h c rfl⟩
        rintro h c' ⟨⟩
        exact h
  rw [← hclass, permit]
  cases escape with
  | none => exact ⟨fun h => ⟨fun he => (nomatch he), h⟩, And.right⟩
  | some e =>
      change (r.refuseEscape e >>= fun _ => ofClass.forM r.require) = _ ↔ _
      rw [← r.refuseEscape_eq_ok_iff e]
      cases r.refuseEscape e with
      | error why => exact ⟨fun h => (nomatch h), fun h => (nomatch h.1 rfl)⟩
      | ok u => exact ⟨fun h => ⟨fun _ => rfl, h⟩, And.right⟩

/-- A policy that is read-only looks at the class of nothing that gets out of that mode. -/
theorem permit_of_escape {d : Demand} {e : Escape} (hr : r.readOnly = true)
    (he : d.escape = some e) : r.permit d = .error (.readOnly e) := by
  rw [permit, he]
  change (r.refuseEscape e >>= fun _ => _) = _
  rw [refuseEscape, if_pos hr]
  rfl

theorem permit_eq_error {d : Demand} {why : Refusal} (h : r.permit d = .error why) :
    (∃ e, why = .readOnly e) ∨ ∃ c, why = .blocked c ∧ r.allows c = false := by
  obtain ⟨escape, ofClass⟩ := d
  have hclass : ofClass.forM r.require = .error why →
      ∃ c, why = .blocked c ∧ r.allows c = false := by
    cases ofClass with
    | none => exact fun h => nomatch h
    | some c => exact fun h => ⟨c, r.require_eq_error h⟩
  rw [permit] at h
  cases escape with
  | none => exact .inr (hclass h)
  | some e =>
      change (r.refuseEscape e >>= fun _ => ofClass.forM r.require) = _ at h
      cases he : r.refuseEscape e with
      | error why' =>
          rw [he] at h
          obtain rfl : why' = why := Except.error.inj h
          exact .inl ⟨e, r.refuseEscape_eq_error he⟩
      | ok u =>
          rw [he] at h
          exact .inr (hclass h)

end Rules

end SqlGate.Policy

/-! ## Nodes -/

namespace SqlGate

namespace Sql

/-- A node of a tree. -/
inductive Node where
  | expr (e : Expr)
  | relation (r : Relation)
  | query (q : Query)
  | body (b : QueryBody)
  | statement (s : Statement)

namespace Node

/-- The nodes right below a node. -/
def children : Node → List Node
  | expr (.name _) => []
  | expr (.literal _) => []
  | expr (.wildcard _) => []
  | expr (.call _ operands) => operands.map expr
  | expr (.access root steps) => expr root :: steps.map expr
  | expr (.query q) => [query q]
  | expr (.form operands) => operands.map expr
  | relation (.source operands) => operands.map expr
  | relation (.derived q) => [query q]
  | relation (.pivoted r operands) => relation r :: operands.map expr
  | relation (.joined relations operands) => relations.map relation ++ operands.map expr
  | query (.mk named b operands) => named.map query ++ body b :: operands.map expr
  | body (.select operands relations) => operands.map expr ++ relations.map relation
  | body (.query q) => [query q]
  | body (.combined left right) => [body left, body right]
  | body (.values operands) => operands.map expr
  | body (.change s) => [statement s]
  | body (.merge s) => [statement s]
  | body .table => []
  | statement (.query q) => [query q]
  | statement (.insert source operands) => source.toList.map query ++ operands.map expr
  | statement (.update condition relations operands) =>
    condition.toList.map expr ++ relations.map relation ++ operands.map expr
  | statement (.delete condition relations operands) =>
    condition.toList.map expr ++ relations.map relation ++ operands.map expr
  | statement (.merge relations operands) => relations.map relation ++ operands.map expr
  | statement (.explain s) => [statement s]
  | statement (.describe _) => []
  | statement (.prepare s) => [statement s]
  | statement (.copy source _) => source.toList.map query
  | statement .drop => []
  | statement (.truncate operands) => operands.map expr
  | statement (.routine operands ss) => operands.map expr ++ ss.map statement
  | statement (.set _ values) => values.map expr
  | statement (.setTransaction _) => []
  | statement (.startTransaction _) => []
  | statement (.reset _) => []
  | statement (.discard _) => []
  | statement (.other _ operands queries ss) =>
    operands.map expr ++ queries.map query ++ ss.map statement

/-- One node stands in another, at any depth. -/
def Contains : Node → Node → Prop := Relation.ReflTransGen fun n m => m ∈ n.children

/-! ## Where a policy goes -/

/-- The nodes that a policy goes into from a node, in its order. -/
def parts : Node → List Node
  | query (.mk named b _) => named.map query ++ [body b]
  | body (.query q) => [query q]
  | body (.combined left right) => [body left, body right]
  | body (.change s) => [statement s]
  | statement (.query q) => [query q]
  | statement (.insert (some q) _) => [query q]
  | statement (.explain s) => [statement s]
  | statement (.prepare s) => [statement s]
  | statement (.copy (some q) _) => [query q]
  | _ => []

/-- A policy that looks at one node comes to another. -/
def Reaches : Node → Node → Prop := Relation.ReflTransGen fun n m => m ∈ n.parts

/-- The statement that is judged before its parts. -/
def ahead : Node → List Statement
  | statement (.copy _ _) => []
  | statement s => [s]
  | _ => []

/-- The statement that is judged after its parts: a copy, whose direction comes after its query. -/
def behind : Node → List Statement
  | statement (.copy source out) => [.copy source out]
  | _ => []

theorem sizeOf_part {n m : Node} (h : m ∈ n.parts) : sizeOf m < sizeOf n := by
  unfold parts at h
  split at h
  case h_1 named b operands =>
    rcases List.mem_append.1 h with h | h
    · obtain ⟨q, hq, rfl⟩ := List.mem_map.1 h
      have := List.sizeOf_lt_of_mem hq
      simp only [query.sizeOf_spec, Query.mk.sizeOf_spec]
      omega
    · obtain rfl := List.mem_singleton.1 h
      simp only [body.sizeOf_spec, query.sizeOf_spec, Query.mk.sizeOf_spec]
      omega
  case h_3 left right =>
    rcases List.mem_cons.1 h with rfl | h
    · simp only [body.sizeOf_spec, QueryBody.combined.sizeOf_spec]
      omega
    · obtain rfl := List.mem_singleton.1 h
      simp only [body.sizeOf_spec, QueryBody.combined.sizeOf_spec]
      omega
  case h_10 => exact absurd h List.not_mem_nil
  all_goals
    obtain rfl := List.mem_singleton.1 h
    simp
    try omega

/-- The statements that a policy meets below a node, in the order in which it judges them. -/
def walk (n : Node) : List Statement :=
  n.ahead ++ (n.parts.attach.flatMap fun m => walk m.1) ++ n.behind
termination_by sizeOf n
decreasing_by exact sizeOf_part m.2

theorem walk_eq (n : Node) : n.walk = n.ahead ++ n.parts.flatMap walk ++ n.behind := by
  rw [walk, List.flatMap_subtype (fun _ _ => rfl), List.unattach_attach]

/-- What a policy comes to is in the tree. -/
theorem parts_subset_children (n : Node) : n.parts ⊆ n.children := by
  intro m h
  unfold parts at h
  split at h
  case h_1 named b operands =>
    rcases List.mem_append.1 h with h | h
    · exact List.mem_append_left _ h
    · obtain rfl := List.mem_singleton.1 h
      exact List.mem_append_right _ List.mem_cons_self
  case h_3 left right => exact h
  case h_10 => exact absurd h List.not_mem_nil
  all_goals
    obtain rfl := List.mem_singleton.1 h
    simp [children]

theorem Reaches.contains {n m : Node} (h : n.Reaches m) : n.Contains m :=
  Relation.ReflTransGen.mono (fun k _ hk => parts_subset_children k hk) n m h

/-- Every statement is judged, before its parts or after them, and at no other node. -/
theorem mem_ahead_or_behind_iff (n : Node) (s : Statement) :
    s ∈ n.ahead ∨ s ∈ n.behind ↔ n = statement s := by
  unfold ahead behind
  split
  · simp [eq_comm]
  · split
    · simp_all
    · simp [eq_comm]
  · split <;> simp_all

/-- The walk meets the statements that a policy comes to. -/
theorem mem_walk_iff (n : Node) (s : Statement) : s ∈ n.walk ↔ n.Reaches (statement s) := by
  have hwalk : s ∈ n.walk ↔ n = statement s ∨ ∃ m ∈ n.parts, s ∈ m.walk := by
    rw [walk_eq, ← mem_ahead_or_behind_iff]
    simp only [List.mem_append, List.mem_flatMap]
    exact or_right_comm
  rw [hwalk, Reaches, Relation.ReflTransGen.cases_head_iff]
  refine or_congr Iff.rfl (exists_congr fun m => and_congr_right fun hm => ?_)
  exact mem_walk_iff m s
termination_by sizeOf n
decreasing_by exact sizeOf_part hm

/-- A node stands in another, and on the walk of that one some statements come before it. -/
inductive Nested (m : Node) : List Statement → Node → Prop where
  | here : Nested m [] m
  | inside {n k : Node} {before after : List Node} {xs : List Statement}
    (h : n.parts = before ++ k :: after) (hk : Nested m xs k) :
    Nested m (n.ahead ++ before.flatMap walk ++ xs) n

/-- The walk of a node that stands in another is a part of its walk. -/
theorem Nested.walk {m n : Node} {xs : List Statement} (h : Nested m xs n) :
    ∃ ys, n.walk = xs ++ m.walk ++ ys := by
  induction h with
  | here => exact ⟨[], by simp⟩
  | @inside n k before after xs h hk ih =>
      obtain ⟨ys, hys⟩ := ih
      refine ⟨ys ++ after.flatMap Node.walk ++ n.behind, ?_⟩
      rw [walk_eq, h, List.flatMap_append, List.flatMap_cons, hys]
      simp only [List.append_assoc]

end Node

end Sql

namespace Policy

open Sql

/-- What a statement by itself would do to get out of read-only mode. -/
def escape? : Statement → Option Escape
  | .set target _ =>
    if accessVariables.contains (variableName target) then some (.set (variableName target))
    else none
  | .setTransaction modes =>
    if modes.contains (.access .readWrite) then some .switchTransaction else none
  | .startTransaction modes =>
    if modes.contains (.access .readWrite) then some .startTransaction else none
  | _ => none

/-- The class that a statement by itself is of. -/
def class? : Statement → Option StatementClass
  | .update none _ _ => some .updateWithoutWhere
  | .delete none _ _ => some .deleteWithoutWhere
  | .prepare _ => some .prepare
  | .copy _ false => some .copyFrom
  | .drop => some .drop
  | .truncate _ => some .truncate
  | .routine _ _ => some .createFunction
  | .set _ [v] => if v.isDefault then some .reset else none
  | _ => none

/-- What a statement by itself asks of a policy. -/
def demandOf (s : Statement) : Demand := ⟨escape? s, class? s⟩

/-! ## The first failure in a list -/

section FirstFailure

variable {α β : Type} (f : α → Verdict)

theorem forM_append (xs ys : List α) :
    (xs ++ ys).forM f = (do xs.forM f; ys.forM f) := List.forM_append

variable {f} in
theorem forM_congr {g : α → Verdict} {xs : List α} (h : ∀ x ∈ xs, f x = g x) :
    xs.forM f = xs.forM g := by
  induction xs with
  | nil => rfl
  | cons x xs ih =>
      rw [List.forall_mem_cons] at h
      change (f x >>= fun _ => xs.forM f) = (g x >>= fun _ => xs.forM g)
      rw [h.1, ih h.2]

theorem forM_flatMap (g : β → List α) (xs : List β) :
    (xs.flatMap g).forM f = xs.forM fun x => (g x).forM f := by
  induction xs with
  | nil => rfl
  | cons x xs ih =>
      rw [List.flatMap_cons, forM_append, ih]
      rfl

theorem forM_eq_ok_iff (xs : List α) : xs.forM f = .ok () ↔ ∀ x ∈ xs, f x = .ok () := by
  induction xs with
  | nil => exact ⟨fun _ x hx => (List.not_mem_nil hx).elim, fun _ => rfl⟩
  | cons x xs ih =>
      rw [List.forall_mem_cons, ← ih]
      change (f x >>= fun _ => xs.forM f) = _ ↔ _
      cases f x with
      | error why => exact ⟨fun h => (nomatch h), fun h => (nomatch h.1)⟩
      | ok u => exact ⟨fun h => ⟨rfl, h⟩, fun h => h.2⟩

theorem forM_eq_error_iff (xs : List α) (why : Refusal) :
    xs.forM f = .error why ↔
      ∃ before x after, xs = before ++ x :: after ∧ (∀ y ∈ before, f y = .ok ()) ∧
        f x = .error why := by
  induction xs with
  | nil =>
      constructor
      · intro h
        cases h
      · rintro ⟨before, x, after, h, -⟩
        simp at h
  | cons x xs ih =>
      change (f x >>= fun _ => xs.forM f) = _ ↔ _
      cases hx : f x with
      | error why' =>
          constructor
          · intro h
            obtain rfl : why' = why := Except.error.inj h
            exact ⟨[], x, xs, rfl, by simp, hx⟩
          · rintro ⟨before, y, after, h, hbefore, hy⟩
            cases before with
            | nil =>
                obtain ⟨rfl, -⟩ := List.cons.inj h
                exact hx.symm.trans hy
            | cons z before =>
                obtain ⟨rfl, -⟩ := List.cons.inj h
                exact nomatch hx.symm.trans (hbefore x List.mem_cons_self)
      | ok u =>
          refine Iff.trans ih ?_
          constructor
          · rintro ⟨before, y, after, rfl, hbefore, hy⟩
            refine ⟨x :: before, y, after, rfl, ?_, hy⟩
            exact List.forall_mem_cons.2 ⟨hx, hbefore⟩
          · rintro ⟨before, y, after, h, hbefore, hy⟩
            cases before with
            | nil =>
                obtain ⟨rfl, -⟩ := List.cons.inj h
                exact nomatch hx.symm.trans hy
            | cons z before =>
                obtain ⟨rfl, rfl⟩ := List.cons.inj h
                exact ⟨before, y, after, rfl, (List.forall_mem_cons.1 hbefore).2, hy⟩

end FirstFailure

/-! ## The rules -/

namespace Rules

/-- The rule on a statement by itself: it must not get out of read-only mode, and its class must be
allowed. -/
def own (r : Rules) (s : Statement) : Verdict := do
  (escape? s).forM r.refuseEscape
  (class? s).forM r.require

variable (r : Rules)

theorem own_eq_permit (s : Statement) : r.own s = r.permit (demandOf s) := rfl

/-- A statement keeps its own rule if it does not get out of a read-only mode that there is, and if
its class is allowed. -/
theorem own_eq_ok_iff (s : Statement) :
    r.own s = .ok () ↔
      ((escape? s).isSome → r.readOnly = false) ∧
        ∀ c, class? s = some c → r.allows c = true :=
  r.permit_eq_ok_iff (demandOf s)

/-- The rules on a node and on those it leads to. -/
def checkNode : Node → Verdict
  | .expr _ => .ok ()
  | .relation _ => .ok ()
  | .query q => r.checkQuery q
  | .body b => r.checkBody b
  | .statement s => r.checkStatement s

theorem checkQueries_eq (qs : List Query) : r.checkQueries qs = qs.forM r.checkQuery := by
  induction qs with
  | nil => rfl
  | cons q qs ih => rw [checkQueries, ih]; rfl

/-! The own rules of the statements that have parts: only preparing and copying have one. -/

@[simp] theorem own_query (q : Query) : r.own (.query q) = pure () := rfl

@[simp] theorem own_insert (source : Option Query) (operands : List Expr) :
    r.own (.insert source operands) = pure () := rfl

@[simp] theorem own_explain (s : Statement) : r.own (.explain s) = pure () := rfl

@[simp] theorem own_prepare (s : Statement) : r.own (.prepare s) = r.require .prepare := by
  simp [own, escape?, class?]

@[simp] theorem own_copy (source : Option Query) (out : Bool) :
    r.own (.copy source out) = if out then .ok () else r.require .copyFrom := by
  cases out with
  | false => simp [own, escape?, class?]
  | true => rfl

theorem own_set (target : Name) (values : List Expr) :
    r.own (.set target values) = r.checkSet target values := by
  have hclass (v : Expr) : (class? (.set target [v])).forM r.require =
      if v.isDefault then r.require .reset else .ok () := by
    rw [class?]
    by_cases h : v.isDefault
    · simp [h]
    · simp only [h]
      rfl
  rw [own, escape?]
  unfold checkSet
  by_cases h : accessVariables.contains (variableName target)
  · rw [if_pos h, if_pos h]
    rcases values with - | ⟨v, - | -⟩
    · rfl
    · rw [hclass]
      rfl
    · rfl
  · rw [if_neg h, if_neg h]
    rcases values with - | ⟨v, - | -⟩
    · rfl
    · rw [hclass]
      rfl
    · rfl

/-- The rule on a statement that only gives a transaction its modes. -/
theorem own_of_modes {s : Statement} {modes : List TransactionMode} {e : Escape}
    (hescape : escape? s = if modes.contains (.access .readWrite) then some e else none)
    (hclass : class? s = none) : r.own s = r.checkModes modes e := by
  rw [own, hescape, hclass, checkModes]
  by_cases h : modes.contains (.access .readWrite)
  · rw [if_pos h, if_pos h]
    exact bind_pure_unit
  · rw [if_neg h, if_neg h]
    rfl

/-- A statement without parts is checked by its own rule. -/
theorem checkStatement_of_parts_nil {s : Statement} (h : (Node.statement s).parts = []) :
    r.checkStatement s = r.own s := by
  cases s with
  | query q => cases h
  | insert source operands =>
      cases source with
      | none => rfl
      | some q => cases h
  | update condition relations operands =>
      cases condition with
      | none => simp [checkStatement, own, escape?, class?]
      | some e => rfl
  | delete condition relations operands =>
      cases condition with
      | none => simp [checkStatement, own, escape?, class?]
      | some e => rfl
  | explain s => cases h
  | prepare s => cases h
  | copy source out =>
      cases source with
      | none => rw [checkStatement, own_copy]
      | some q => cases h
  | drop => simp [checkStatement, own, escape?, class?]
  | truncate operands => simp [checkStatement, own, escape?, class?]
  | routine operands body => simp [checkStatement, own, escape?, class?]
  | set target values => rw [checkStatement, own_set]
  | setTransaction modes => rw [checkStatement, own_of_modes r rfl rfl]
  | startTransaction modes => rw [checkStatement, own_of_modes r rfl rfl]
  | merge relations operands => rfl
  | describe table => rfl
  | reset target => rfl
  | discard what => rfl
  | other kind operands queries bodies => rfl

/-- The own rule of a statement is applied once, ahead of the parts or behind them. -/
theorem own_ahead_behind (s : Statement) :
    ((Node.statement s).ahead.forM r.own >>= fun _ => (Node.statement s).behind.forM r.own) =
      r.own s := by
  cases s with
  | copy source out => simp [Node.ahead, Node.behind]
  | _ => simp [Node.ahead, Node.behind]

/-- One step of the check: a statement that comes ahead, the parts in their order, and a statement
that comes behind. -/
def stepOf (n : Node) : Verdict := do
  n.ahead.forM r.own
  n.parts.forM r.checkNode
  n.behind.forM r.own

theorem checkNode_of_parts_nil {s : Statement} (h : (Node.statement s).parts = []) :
    r.checkNode (.statement s) = r.stepOf (.statement s) := by
  rw [stepOf, h, checkNode, checkStatement_of_parts_nil r h, ← own_ahead_behind r s]
  simp

/-- A node is checked in one step over its parts. -/
theorem checkNode_eq (n : Node) : r.checkNode n = r.stepOf n := by
  match n with
  | .expr _ => rfl
  | .relation _ => rfl
  | .query (.mk named b _) =>
      simp [checkNode, checkQuery, checkQueries_eq, stepOf, Node.ahead, Node.parts, Node.behind]
  | .body b =>
      cases b with
      | query _ | combined _ _ | change _ =>
          simp [checkNode, checkBody, stepOf, Node.ahead, Node.parts, Node.behind]
      | _ => rfl
  | .statement s =>
      cases s with
      | query _ | explain _ | prepare _ =>
          simp [checkNode, checkStatement, stepOf, Node.ahead, Node.parts, Node.behind]
      | insert source _ | copy source _ =>
          cases source with
          | none => exact checkNode_of_parts_nil r rfl
          | some _ => simp [checkNode, checkStatement, stepOf, Node.ahead, Node.parts, Node.behind]
      | _ => exact checkNode_of_parts_nil r rfl

/-- The check of a node judges the statements on its walk, one after another. -/
theorem checkNode_eq_walk (n : Node) : r.checkNode n = n.walk.forM r.own := by
  have hparts : n.parts.forM r.checkNode = n.parts.forM fun m => m.walk.forM r.own := by
    have hall : ∀ m ∈ n.parts, r.checkNode m = m.walk.forM r.own :=
      fun m hm => checkNode_eq_walk m
    exact forM_congr hall
  rw [checkNode_eq, stepOf, hparts, ← forM_flatMap, n.walk_eq, forM_append, forM_append,
    bind_assoc]
termination_by sizeOf n
decreasing_by exact Node.sizeOf_part hm

/-- What a node is refused for, another one is refused for that it stands in, unless the walk of
that one breaks a rule before. -/
theorem checkNode_of_nested {m n : Node} {before : List Statement} (h : m.Nested before n)
    (hb : ∀ x ∈ before, r.own x = .ok ()) {why : Refusal} (hm : r.checkNode m = .error why) :
    r.checkNode n = .error why := by
  obtain ⟨ys, hw⟩ := h.walk
  rw [checkNode_eq_walk] at hm ⊢
  rw [hw, forM_append, forM_append, (forM_eq_ok_iff r.own before).2 hb, hm]
  rfl

/-- **The verdict on a statement.** It is accepted if all statements that the policy comes to keep
their own rules, and otherwise refused for the first of them on the walk that does not. Inside
another statement it is refused for the same reason, if what comes before it there is accepted. -/
theorem checkStatement_exact (s : Statement) :
    (r.checkStatement s = .ok () ↔
      ∀ s', (Node.statement s).Reaches (.statement s') → r.own s' = .ok ()) ∧
    (∀ why, r.checkStatement s = .error why ↔
      ∃ before s' after, (Node.statement s).walk = before ++ s' :: after ∧
        (∀ x ∈ before, r.own x = .ok ()) ∧ r.own s' = .error why) ∧
    (∀ s', s' ∈ (Node.statement s).walk ↔ (Node.statement s).Reaches (.statement s')) ∧
    (∀ before s', (Node.statement s).Nested before (.statement s') →
      (∀ x ∈ before, r.own x = .ok ()) →
      ∀ why, r.checkStatement s = .error why → r.checkStatement s' = .error why) := by
  have hwalk : r.checkStatement s = (Node.statement s).walk.forM r.own :=
    checkNode_eq_walk r (.statement s)
  refine ⟨?_, ?_, fun s' => Node.mem_walk_iff _ s', ?_⟩
  · rw [hwalk, forM_eq_ok_iff]
    exact forall_congr' fun s' => imp_congr (Node.mem_walk_iff _ s') Iff.rfl
  · intro why
    rw [hwalk, forM_eq_error_iff]
  · intro before s' hn hb why hs
    exact checkNode_of_nested r hn hb hs

end Rules

end Policy

end SqlGate
