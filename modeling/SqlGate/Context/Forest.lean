import SqlGate.Context

/-!
# Derived contexts

A context may be derived from another one, with a deadline of its own. It never lasts longer than
the context it comes from: its deadline is the earlier one, and it is cancelled with it. What
happens to a derived context does not reach the one it comes from.

The contexts of a forest are numbered in the order in which they were made, so a context comes after
the one it is derived from.
-/

namespace SqlGate.Context

/-- A context and the number of the one that it comes from. -/
structure Node where
  parent : Option Nat
  context : Context
  deriving Repr

/-- Contexts and the ones derived from them. -/
structure Forest where
  nodes : List Node
  deriving Repr

namespace Forest

/-- No contexts. -/
def empty : Forest := ⟨[]⟩

/-- The context of a number. -/
def get? (f : Forest) (i : Nat) : Option Context := f.nodes[i]?.map (·.context)

/-- How many contexts there are, which is the number of the next one. -/
def size (f : Forest) : Nat := f.nodes.length

/-- The forest with one more context, which comes from nothing. -/
def plant (f : Forest) (c : Context) : Forest := ⟨f.nodes ++ [⟨none, c⟩]⟩

/-- The forest with one more context, which is derived from another one. -/
def derive (f : Forest) (parent : Nat) (limit : Instant) : Forest :=
  match f.get? parent with
  | some c => ⟨f.nodes ++ [⟨some parent, c.within (some limit)⟩]⟩
  | none => f

/-- Whether a context is the given one or comes from one of the given ones. -/
def follows (n : Node) (j i : Nat) (reached : List Nat) : Bool :=
  j = i || n.parent.any fun p => reached.contains p

/-- The numbers of a context and of all that come from it. -/
def subtree (f : Forest) (i : Nat) : List Nat :=
  f.nodes.zipIdx.foldl (fun reached (n, j) =>
    if follows n j i reached then reached ++ [j] else reached) []

/-- Cancels a context and all that come from it. -/
def cancel (f : Forest) (i : Nat) (now : Instant) : Forest :=
  let reached := f.subtree i
  ⟨f.nodes.zipIdx.map fun (n, j) =>
    if reached.contains j then { n with context := n.context.cancel now } else n⟩

/-- Why a context is over at an instant, if it is. -/
def status (f : Forest) (i : Nat) (now : Instant) : Option Ending :=
  (f.get? i).bind (·.status now)

end Forest

end SqlGate.Context
