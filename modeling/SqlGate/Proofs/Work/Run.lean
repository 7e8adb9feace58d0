import SqlGate.Proofs.Context.Await
import SqlGate.Work

/-!
# Running work in parts

Work that goes on with more work is run by running the first part and, from the instant at which it
ended, the second one. So a run of a call is put together from runs of its stages: `run_bind` does
this for any work. The lemmas before it say what one request to the database or to a guardrail
comes to, in each of the ways in which it can turn out.

Two pieces of work are alike if they end with the same value, whatever was asked for on the way and
whenever it was (`Alike`). What goes on alike from where it is the same is alike.
-/

namespace SqlGate

namespace Work

variable {α β : Type}

instance : LawfulMonad Work := LawfulMonad.mk' Work
  (fun w => by
    induction w with
    | done a => rfl
    | deadline span inside next ih => exact congrArg (deadline span inside) (funext ih)
    | perform op limit next ih => exact congrArg (perform op limit) (funext ih)
    | consult g payload limit next ih => exact congrArg (consult g payload limit) (funext ih)
    | rest => rfl)
  (fun _ _ => rfl)
  (fun w f g => by
    induction w with
    | done a => rfl
    | deadline span inside next ih => exact congrArg (deadline span inside) (funext ih)
    | perform op limit next ih => exact congrArg (perform op limit) (funext ih)
    | consult h payload limit next ih => exact congrArg (consult h payload limit) (funext ih)
    | rest => rfl)

/-! ## One request -/

section Request

variable (c : Context) (b : Backend) (horizon : Option Instant) {now t : Instant}
  {e : Context.Ending}

/-- A run that has already seen some entries. -/
def preceded (entries : List Entry) (r : List Entry × Progress α) : List Entry × Progress α :=
  (entries ++ r.1, r.2)

theorem run_deadline_some {span : Duration} (inside : Bool) (next : Instant → Work α)
    (h : Clock.after? now span = some t) :
    run c b horizon (.deadline span inside next) now = run c b horizon (next t) now := by
  rw [run, h]

theorem run_deadline_none {span : Duration} (inside : Bool) (next : Instant → Work α)
    (h : Clock.after? now span = none) :
    run c b horizon (.deadline span inside next) now = (dropIf inside now, .ended now none) := by
  rw [run, h]

theorem run_perform_eq (op : Backend.Operation) (limit : Option Instant)
    (next : Reply op.Answer → Work α) :
    run c b horizon (.perform op limit next) now =
      let due := (b.behaviour op).delay.map (now + ·)
      match (c.within limit).status now with
      | some e => preceded (refusal op now) (run c b horizon (next (.late e)) now)
      | none => preceded [⟨now, .asked op⟩] <|
        match (c.within limit).await horizon now due with
        | some (t, none) => run c b horizon (next (.answered (b.behaviour op).result)) t
        | some (t, some e) => run c b horizon (next (.late e)) t
        | none => ([], .waiting (.busy limit due (next (.answered (b.behaviour op).result))
            fun e => next (.late e))) := by
  simp only [run]
  rfl

/-- An operation is not begun in a context that is over. -/
theorem run_perform_over {op : Backend.Operation} {limit : Option Instant}
    (next : Reply op.Answer → Work α) (h : (c.within limit).status now = some e) :
    run c b horizon (.perform op limit next) now =
      preceded (refusal op now) (run c b horizon (next (.late e)) now) := by
  rw [run_perform_eq, h]

theorem run_perform_answered {op : Backend.Operation} {limit : Option Instant}
    (next : Reply op.Answer → Work α) (h : (c.within limit).status now = none)
    (hw : (c.within limit).await horizon now ((b.behaviour op).delay.map (now + ·)) =
      some (t, none)) :
    run c b horizon (.perform op limit next) now =
      preceded [⟨now, .asked op⟩]
        (run c b horizon (next (.answered (b.behaviour op).result)) t) := by
  rw [run_perform_eq, h]
  dsimp only
  rw [hw]

theorem run_perform_late {op : Backend.Operation} {limit : Option Instant}
    (next : Reply op.Answer → Work α) (h : (c.within limit).status now = none)
    (hw : (c.within limit).await horizon now ((b.behaviour op).delay.map (now + ·)) =
      some (t, some e)) :
    run c b horizon (.perform op limit next) now =
      preceded [⟨now, .asked op⟩] (run c b horizon (next (.late e)) t) := by
  rw [run_perform_eq, h]
  dsimp only
  rw [hw]

theorem run_perform_waiting {op : Backend.Operation} {limit : Option Instant}
    (next : Reply op.Answer → Work α) (h : (c.within limit).status now = none)
    (hw : (c.within limit).await horizon now ((b.behaviour op).delay.map (now + ·)) = none) :
    run c b horizon (.perform op limit next) now =
      ([⟨now, .asked op⟩], .waiting (.busy limit ((b.behaviour op).delay.map (now + ·))
        (next (.answered (b.behaviour op).result)) fun e => next (.late e))) := by
  rw [run_perform_eq, h]
  dsimp only
  rw [hw]
  rfl

theorem run_consult_eq (g : Guardrail) (payload : String) (limit : Instant)
    (next : Except Guardrail.Fault Guardrail.Response → Work α) :
    run c b horizon (.consult g payload limit next) now =
      preceded [⟨now, .consulted g.name payload⟩] (match g.fate payload with
        | .failsAtOnce cause => run c b horizon (next (.error ⟨g.name, cause⟩)) now
        | .decides delay decision =>
          let due := delay.map (now + ·)
          let decided := decision.mapError (Guardrail.Fault.mk g.name)
          match (c.within (some limit)).await horizon now due with
          | some (t, none) => run c b horizon (next decided) t
          | some (t, some e) => run c b horizon (next (.error ⟨g.name, .ofEnding e⟩)) t
          | none => ([], .waiting (.busy (some limit) due (next decided)
              fun e => next (.error ⟨g.name, .ofEnding e⟩)))) := by
  simp only [run]
  rfl

theorem run_consult_atOnce {g : Guardrail} {payload : String} (limit : Instant)
    (next : Except Guardrail.Fault Guardrail.Response → Work α) {cause : Guardrail.Cause}
    (h : g.fate payload = .failsAtOnce cause) :
    run c b horizon (.consult g payload limit next) now =
      preceded [⟨now, .consulted g.name payload⟩]
        (run c b horizon (next (.error ⟨g.name, cause⟩)) now) := by
  rw [run_consult_eq, h]

theorem run_consult_decided {g : Guardrail} {payload : String} {limit : Instant}
    (next : Except Guardrail.Fault Guardrail.Response → Work α) {delay : Option Nat}
    {decision : Except Guardrail.Cause Guardrail.Response}
    (h : g.fate payload = .decides delay decision)
    (hw : (c.within (some limit)).await horizon now (delay.map (now + ·)) = some (t, none)) :
    run c b horizon (.consult g payload limit next) now =
      preceded [⟨now, .consulted g.name payload⟩]
        (run c b horizon (next (decision.mapError (Guardrail.Fault.mk g.name))) t) := by
  rw [run_consult_eq, h]
  dsimp only
  rw [hw]

theorem run_consult_late {g : Guardrail} {payload : String} {limit : Instant}
    (next : Except Guardrail.Fault Guardrail.Response → Work α) {delay : Option Nat}
    {decision : Except Guardrail.Cause Guardrail.Response}
    (h : g.fate payload = .decides delay decision)
    (hw : (c.within (some limit)).await horizon now (delay.map (now + ·)) = some (t, some e)) :
    run c b horizon (.consult g payload limit next) now =
      preceded [⟨now, .consulted g.name payload⟩]
        (run c b horizon (next (.error ⟨g.name, .ofEnding e⟩)) t) := by
  rw [run_consult_eq, h]
  dsimp only
  rw [hw]

theorem run_consult_waiting {g : Guardrail} {payload : String} {limit : Instant}
    (next : Except Guardrail.Fault Guardrail.Response → Work α) {delay : Option Nat}
    {decision : Except Guardrail.Cause Guardrail.Response}
    (h : g.fate payload = .decides delay decision)
    (hw : (c.within (some limit)).await horizon now (delay.map (now + ·)) = none) :
    run c b horizon (.consult g payload limit next) now =
      ([⟨now, .consulted g.name payload⟩], .waiting (.busy (some limit) (delay.map (now + ·))
        (next (decision.mapError (Guardrail.Fault.mk g.name)))
        fun e => next (.error ⟨g.name, .ofEnding e⟩))) := by
  rw [run_consult_eq, h]
  dsimp only
  rw [hw]
  rfl

end Request

/-! ## One part after another -/

/-- Work that waits, and then more. -/
def Pending.bind (p : Pending α) (f : α → Work β) : Pending β :=
  match p with
  | .busy limit due finished givenUp =>
    .busy limit due (finished >>= f) fun e => givenUp e >>= f
  | .resting => .resting

/-- Goes on with more work from where the first part has come to. -/
def andThen (c : Context) (b : Backend) (horizon : Option Instant) (f : α → Work β) :
    List Entry × Progress α → List Entry × Progress β
  | (entries, .ended t (some a)) => preceded entries (run c b horizon (f a) t)
  | (entries, .ended t none) => (entries, .ended t none)
  | (entries, .waiting p) => (entries, .waiting (p.bind f))

theorem andThen_preceded (c : Context) (b : Backend) (horizon : Option Instant) (f : α → Work β)
    (entries : List Entry) (r : List Entry × Progress α) :
    andThen c b horizon f (preceded entries r) = preceded entries (andThen c b horizon f r) := by
  obtain ⟨more, p⟩ := r
  cases p with
  | waiting p => rfl
  | ended t value =>
      cases value with
      | none => rfl
      | some a => simp [andThen, preceded]

/-- Some work and then more is run as the work, and from its end on as the rest. -/
theorem run_bind (c : Context) (b : Backend) (horizon : Option Instant) (w : Work α)
    (f : α → Work β) (now : Instant) :
    run c b horizon (w >>= f) now = andThen c b horizon f (run c b horizon w now) := by
  induction w generalizing now with
  | done a => rfl
  | rest => rfl
  | deadline span inside next ih =>
      change run c b horizon (.deadline span inside fun t => next t >>= f) now = _
      cases h : Clock.after? now span with
      | none =>
          rw [run_deadline_none c b horizon _ _ h, run_deadline_none c b horizon _ _ h, andThen]
      | some t => rw [run_deadline_some c b horizon _ _ h, run_deadline_some c b horizon _ _ h, ih]
  | perform op limit next ih =>
      change run c b horizon (.perform op limit fun r => next r >>= f) now = _
      cases h : (c.within limit).status now with
      | some e =>
          rw [run_perform_over c b horizon _ h, run_perform_over c b horizon _ h,
            andThen_preceded, ih]
      | none =>
          cases hw : (c.within limit).await horizon now ((b.behaviour op).delay.map (now + ·)) with
          | none =>
              rw [run_perform_waiting c b horizon _ h hw, run_perform_waiting c b horizon _ h hw]
              rfl
          | some outcome =>
              obtain ⟨t, ending⟩ := outcome
              cases ending with
              | none =>
                  rw [run_perform_answered c b horizon _ h hw,
                    run_perform_answered c b horizon _ h hw, andThen_preceded, ih]
              | some e =>
                  rw [run_perform_late c b horizon _ h hw, run_perform_late c b horizon _ h hw,
                    andThen_preceded, ih]
  | consult g payload limit next ih =>
      change run c b horizon (.consult g payload limit fun r => next r >>= f) now = _
      cases h : g.fate payload with
      | failsAtOnce cause =>
          rw [run_consult_atOnce c b horizon _ _ h, run_consult_atOnce c b horizon _ _ h,
            andThen_preceded, ih]
      | decides delay decision =>
          cases hw : (c.within (some limit)).await horizon now (delay.map (now + ·)) with
          | none =>
              rw [run_consult_waiting c b horizon _ h hw, run_consult_waiting c b horizon _ h hw]
              rfl
          | some outcome =>
              obtain ⟨t, ending⟩ := outcome
              cases ending with
              | none =>
                  rw [run_consult_decided c b horizon _ h hw,
                    run_consult_decided c b horizon _ h hw, andThen_preceded, ih]
              | some e =>
                  rw [run_consult_late c b horizon _ h hw, run_consult_late c b horizon _ h hw,
                    andThen_preceded, ih]

/-! ## Attempts -/

variable {ε : Type}

/-- Goes on with an attempt if the one before it succeeded. -/
def onward (f : α → ExceptT ε Work β) : Except ε α → Work (Except ε β)
  | .ok a => (f a).run
  | .error why => pure (.error why)

/-- An attempt after another begins where that one succeeded. -/
theorem run_attempt_bind (c : Context) (b : Backend) (horizon : Option Instant)
    (x : ExceptT ε Work α) (f : α → ExceptT ε Work β) (now : Instant) :
    run c b horizon (x >>= f).run now =
      andThen c b horizon (onward f) (run c b horizon x.run now) := by
  rw [ExceptT.run_bind, ← run_bind]
  refine congrArg (run c b horizon · now) (congrArg (x.run >>= ·) (funext fun d => ?_))
  cases d <;> rfl

/-! The three ways in which the first attempt can have come to an end. -/

section AttemptBind

variable {c : Context} {b : Backend} {horizon : Option Instant} {x : ExceptT ε Work α}
  {entries : List Entry} {now t : Instant}

theorem run_attempt_bind_ok {a : α} (f : α → ExceptT ε Work β)
    (h : run c b horizon x.run now = (entries, .ended t (some (.ok a)))) :
    run c b horizon (x >>= f).run now = preceded entries (run c b horizon (f a).run t) := by
  rw [run_attempt_bind, h, andThen, onward]

theorem run_attempt_bind_error {why : ε} (f : α → ExceptT ε Work β)
    (h : run c b horizon x.run now = (entries, .ended t (some (.error why)))) :
    run c b horizon (x >>= f).run now = (entries, .ended t (some (.error why))) := by
  rw [run_attempt_bind, h, andThen, onward]
  change preceded entries ([], _) = _
  rw [preceded, List.append_nil]

theorem run_attempt_bind_none (f : α → ExceptT ε Work β)
    (h : run c b horizon x.run now = (entries, .ended t none)) :
    run c b horizon (x >>= f).run now = (entries, .ended t none) := by
  rw [run_attempt_bind, h, andThen]

end AttemptBind

/-! ## What work ends with -/

section Ending

variable {c : Context} {b : Backend} {t : Instant}

/-- The value that work has ended with, if it has ended with one. -/
def Progress.value? : Progress α → Option α
  | .ended _ v => v
  | .waiting _ => none

/-- Two pieces of work that begin at the same instant end with the same value, or both of them
without one. -/
def Alike (c : Context) (b : Backend) (w w' : Work α) (t : Instant) : Prop :=
  (run c b none w t).2.value? = (run c b none w' t).2.value?

/-- Work that goes on alike from where it is the same. -/
theorem alike_attempt_bind {x : ExceptT ε Work α} {f g : α → ExceptT ε Work β}
    (h : ∀ entries a t', run c b none x.run t = (entries, .ended t' (some (.ok a))) →
      Alike c b (f a).run (g a).run t') :
    Alike c b (x >>= f).run (x >>= g).run t := by
  unfold Alike
  rw [run_attempt_bind, run_attempt_bind]
  match hx : run c b none x.run t with
  | (entries, .waiting p) => rfl
  | (entries, .ended t' none) => rfl
  | (entries, .ended t' (some (.error why))) => rfl
  | (entries, .ended t' (some (.ok a))) => exact h entries a t' hx

/-- Work whose value is turned into another one. -/
theorem value?_map (w : Work α) (f : α → β) (t : Instant) :
    (run c b none (w >>= fun a => .done (f a)) t).2.value? =
      (run c b none w t).2.value?.map f := by
  rw [run_bind]
  match run c b none w t with
  | (entries, .waiting p) => rfl
  | (entries, .ended t none) => rfl
  | (entries, .ended t (some a)) => rfl

/-- What comes back of an operation that is due at an instant, if anything does. -/
def reply? (c : Context) (b : Backend) (op : Backend.Operation) (t : Instant) :
    Option (Reply op.Answer) :=
  (c.await none t ((b.behaviour op).delay.map (t + ·))).map fun (_, ending) =>
    match ending with
    | none => .answered (b.behaviour op).result
    | some e => .late e

theorem value?_perform {op : Backend.Operation} (g : Reply op.Answer → α) :
    (run c b none (.perform op none fun reply => .done (g reply)) t).2.value? =
      (reply? c b op t).map g := by
  unfold reply?
  cases hs : c.status t with
  | some e =>
      have hw : c.await none t ((b.behaviour op).delay.map (t + ·)) = some (t, some e) := by
        rw [Context.await, hs]
        rfl
      rw [run_perform_over c b none _ (c.within_none.symm ▸ hs), hw]
      rfl
  | none =>
      rw [← c.within_none] at hs
      cases hw : c.await none t ((b.behaviour op).delay.map (t + ·)) with
      | none =>
          rw [run_perform_waiting c b none _ hs (c.within_none.symm ▸ hw)]
          rfl
      | some outcome =>
          obtain ⟨t', _ | e⟩ := outcome
          · rw [run_perform_answered c b none _ hs (c.within_none.symm ▸ hw)]
            rfl
          · rw [run_perform_late c b none _ hs (c.within_none.symm ▸ hw)]
            rfl

end Ending

end Work

/-! ## Work that keeps order

Work keeps order with transactions if it opens one only while it owns none, does inside one only
what belongs there, says truly whether it is inside one when it looks at the clock, and something
holds of its result and of what it owns in the end. This is asked of all the replies that can come
back, and what is owned is carried along the work, as `Backend.Operation.owned` has it.
-/

/-- Whether a call owns a transaction once an operation on the database is over, if it did or did
not own one before. Whoever ends a transaction gives it away, however that comes out. -/
def Backend.Operation.owned : (op : Backend.Operation) → Reply op.Answer → Bool → Bool
  | .begin _, .answered (.ok _), _ => true
  | .commit, _, _ => false
  | .rollback, _, _ => false
  | _, _, before => before

/-- An operation that belongs into a transaction. -/
def Backend.Operation.isInside : Backend.Operation → Bool
  | .execute _ => true
  | .commit => true
  | .rollback => true
  | _ => false

namespace Work

variable {α β ε : Type} {q : α → Bool → Prop} {owned : Bool}

/-- Work keeps order from where it owns a transaction or does not, and `q` holds at its end. -/
def Orderly (q : α → Bool → Prop) : Work α → Bool → Prop
  | .done a, owned => q a owned
  | .deadline _ inside next, owned => inside = owned ∧ ∀ t, (next t).Orderly q owned
  | .perform op _ next, owned => owned = op.isInside ∧ ∀ r, (next r).Orderly q (op.owned r owned)
  | .consult _ _ _ next, owned => ∀ d, (next d).Orderly q owned
  | .rest, _ => True

theorem orderly_bind {q : β → Bool → Prop} (w : Work α) (f : α → Work β) (owned : Bool) :
    (w >>= f).Orderly q owned ↔ w.Orderly (fun a o => (f a).Orderly q o) owned := by
  induction w generalizing owned with
  | done a => exact Iff.rfl
  | rest => exact Iff.rfl
  | deadline span inside next ih => exact and_congr_right fun _ => forall_congr' fun t => ih t owned
  | perform op limit next ih => exact and_congr_right fun _ => forall_congr' fun r => ih r _
  | consult g payload limit next ih => exact forall_congr' fun d => ih d owned

theorem Orderly.mono {q' : α → Bool → Prop} {w : Work α} (h : w.Orderly q owned)
    (hq : ∀ a o, q a o → q' a o) : w.Orderly q' owned := by
  induction w generalizing owned with
  | done a => exact hq a owned h
  | rest => trivial
  | deadline span inside next ih => exact ⟨h.1, fun t => ih t (h.2 t)⟩
  | perform op limit next ih => exact ⟨h.1, fun r => ih r (h.2 r)⟩
  | consult g payload limit next ih => exact fun d => ih d (h d)

/-- The end of work that owns as much as it is said to. -/
def Owning (owned : Bool) : α → Bool → Prop := fun _ o => o = owned

/-- An attempt after another, which keeps order whatever the first one comes to. -/
theorem orderly_attempt_bind {q : Except ε β → Bool → Prop} {x : ExceptT ε Work α}
    {f : α → ExceptT ε Work β} {r : Except ε α → Bool → Prop} (hx : x.run.Orderly r owned)
    (hok : ∀ a o, r (.ok a) o → (f a).run.Orderly q o)
    (herror : ∀ why o, r (.error why) o → q (.error why) o) :
    (x >>= f).run.Orderly q owned := by
  rw [ExceptT.run_bind, orderly_bind]
  refine hx.mono fun d o hd => ?_
  cases d with
  | ok a => exact hok a o hd
  | error why => exact herror why o hd

end Work

end SqlGate
