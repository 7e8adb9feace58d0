import SqlGate.Pipeline
import SqlGate.Proofs.Guardrail.Course

/-!
# The stages of a call

A call is made of a few kinds of work: it asks the guardrails of a phase, it asks the database, it
does what belongs into a transaction. For each of them there is a relation that says how it comes
out, and a lemma that running it comes out that way. What follows the last request of a call is
`Quiet`: nothing more is seen of it.
-/

namespace SqlGate

namespace Work

variable {α β : Type} {c : Context} {b : Backend} {horizon : Option Instant}

end Work

namespace Pipeline

/-- How an operation that was begun at an instant in a context comes out, and when. -/
inductive Returned (c : Context) (b : Backend) (op : Backend.Operation) (t : Instant) :
    Reply op.Answer → Instant → Prop where
  | answered {t' : Instant}
    (hw : c.await none t ((b.behaviour op).delay.map (t + ·)) = some (t', none)) :
    Returned c b op t (.answered (b.behaviour op).result) t'
  | late {t' : Instant} {e : Context.Ending}
    (hw : c.await none t ((b.behaviour op).delay.map (t + ·)) = some (t', some e)) :
    Returned c b op t (.late e) t'

variable (p : Pipeline) (c : Context) (b : Backend)

/-! ## One request -/

/-- In a context that ends, every operation that is begun comes out. -/
theorem exists_returned {c : Context} (op : Backend.Operation) (t : Instant)
    (h : c.endsAt.isSome) : ∃ reply t', Returned c b op t reply t' := by
  obtain ⟨⟨t', ending⟩, hw⟩ := Option.isSome_iff_exists.1
    (Context.await_isSome t ((b.behaviour op).delay.map (t + ·)) h)
  cases ending with
  | none => exact ⟨_, _, .answered hw⟩
  | some e => exact ⟨_, _, .late hw⟩

variable {c b} in
/-- The context is still live when an operation has been done. -/
theorem Returned.status {op : Backend.Operation} {t t' : Instant} {reply : Reply op.Answer}
    {span : Duration} {a : op.Answer} (h : Returned c b op t reply t')
    (hr : ofReply span reply = .ok a) : c.status t' = none := by
  cases h with
  | answered hw => exact Context.status_of_await_done hw
  | @late _ e hw => cases e <;> cases hr

theorem run_perform_live {c : Context} {b : Backend} {until' : Option Instant}
    {op : Backend.Operation} {t t' : Instant} {reply : Reply op.Answer} (span : Duration)
    (hs : (c.within until').status t = none) (h : Returned (c.within until') b op t reply t') :
    Work.run c b none (perform span until' op).run t =
      ([⟨t, .asked op⟩], .ended t' (some (ofReply span reply))) := by
  change Work.run c b none (.perform op until' fun reply => .done (ofReply span reply)) t = _
  cases h with
  | answered hw => rw [Work.run_perform_answered c b none _ hs hw]; rfl
  | late hw => rw [Work.run_perform_late c b none _ hs hw]; rfl

/-- Asking the guardrails of a phase follows its course; their failures are failures of the
call. -/
theorem run_consult (phase : Guardrail.Phase) (text : String) (t : Instant) :
    ∃ seen v t', Guardrail.Course c phase (p.guardrails.entries phase) text t seen v t' ∧
      Work.run c b none (p.consult phase text).run t =
        (seen ++ Guardrail.remains phase t' v.isNone,
          .ended t' (v.map (·.mapError Fault.guardrail))) := by
  obtain ⟨seen, v, t', hc, hr⟩ :=
    Guardrail.run_consultAll c b phase (p.guardrails.entries phase) text t
  refine ⟨seen, v, t', hc, ?_⟩
  change Work.run c b none ((p.guardrails.consult phase text).run >>= _) t = _
  rw [Work.run_bind, Guardrail.Chain.consult, hr]
  cases v with
  | none => rfl
  | some d =>
      change Work.preceded _ ([], _) = _
      simp [Work.preceded]

/-! ## Inside a transaction -/

end Pipeline

end SqlGate
