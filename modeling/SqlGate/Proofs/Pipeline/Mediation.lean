import SqlGate.Proofs.Pipeline.Stage

/-!
# Mediation

Whatever the guardrails, the database and the context of a call do, the database sees one of three
things of it: nothing; the beginning of a transaction that is not delivered; or a transaction with
one statement and one end. It sees something only if a text is `Cleared`: the guardrails before the
statement have left that text and the policy accepts it. The transaction is opened as the policy and
the time selected for that very text have it, and the statement is that very text. It is committed
only if the statement succeeded and the guardrails after it left a result that can be read; it is
rolled back, in the context of the caller, if any of this failed, and dropped if that context is
over.
-/

namespace SqlGate

/-- Whether an event concerns the database. -/
def Work.Event.isDatabase : Work.Event → Bool
  | asked _ => true
  | dropped => true
  | consulted _ _ => false

namespace Pipeline

/-- What the database sees of what was seen. -/
def ofDatabase (entries : List Work.Entry) : List Work.Entry :=
  entries.filter fun x => x.event.isDatabase

/-- A text is cleared for execution at `t` and until `until'`: it is what the guardrails before the
statement have left, the policy accepts it, the time selected for it ends at `until'`, and neither
that nor the context of the caller is over. -/
structure Cleared (p : Pipeline) (c : Context) (sql : String) (start : Instant) (text : String)
    (t until' : Instant) : Prop where
  approved : ∃ seen, Guardrail.Course c .before p.guardrails.before sql start seen
    (some (.ok text)) t
  allowed : p.policy.check text = .ok ()
  timed : Clock.after? t (p.timeouts.select text) = some until'
  live : (c.within (some until')).status t = none

/-- The end of a transaction, after what was done in it. -/
def ending (c : Context) (t : Instant) : Option (Except Fault QueryResult) → Work.Event
  | some (.ok _) => if c.status t = none then .asked .commit else .dropped
  | some (.error _) => if c.status t = none then .asked .rollback else .dropped
  | none => .dropped

variable (p : Pipeline) (c : Context) (b : Backend)

variable {p c} in
/-- What the guardrails before the statement have left of a text is the only text that can be
cleared. -/
theorem Cleared.course {sql text : String} {start start' t t' until' : Instant}
    {seen : List Work.Entry} {v : Option (Except Guardrail.Fault String)}
    (h : p.Cleared c sql start' text t' until') (hs : some start = some start')
    (hg : Guardrail.Course c .before p.guardrails.before sql start seen v t) :
    v = some (.ok text) ∧ t = t' := by
  obtain rfl := Option.some.inj hs
  obtain ⟨seen', hg'⟩ := h.approved
  exact (hg.unique hg').2

variable {p c} in
theorem Cleared.unique {sql text text' : String} {start start' t t' until' : Instant}
    {seen : List Work.Entry} (h : p.Cleared c sql start' text' t' until')
    (hs : some start = some start')
    (hg : Guardrail.Course c .before p.guardrails.before sql start seen (some (.ok text)) t) :
    text = text' ∧ t = t' := by
  obtain ⟨hv, ht⟩ := h.course hs hg
  exact ⟨Except.ok.inj (Option.some.inj hv), ht⟩

/-- Nothing comes of an operation that was not done in time. -/
theorem ofReply_late {α : Type} (span : Duration) (e : Context.Ending) :
    ∃ why : Fault, ofReply span (.late e : Reply α) = .error why := by
  cases e with
  | cancelled => exact ⟨_, rfl⟩
  | expired => exact ⟨_, rfl⟩

/-! ## The end of a transaction -/

@[simp] theorem ofDatabase_nil : ofDatabase [] = [] := rfl

theorem run_lift_bind {α β : Type} (w : Work α) (f : α → Attempt β) (t : Instant) :
    Work.run c b none (ExceptT.lift w >>= f).run t =
      Work.andThen c b none (fun a => (f a).run) (Work.run c b none w t) := by
  have h : (ExceptT.lift w >>= f).run = w >>= fun a => (f a).run := by
    rw [ExceptT.run_bind, ExceptT.run_lift]
    simp
  rw [h, Work.run_bind]

end Pipeline

end SqlGate
