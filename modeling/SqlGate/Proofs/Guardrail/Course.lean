import SqlGate.Guardrail.Chain
import SqlGate.Proofs.Work.Run

/-!
# The course of a phase

What the guardrails of a phase do to a text is said here without reference to how the work is run:
`Decides` is how one decision comes out, and `Course` is what the list of them comes to, with what
each of them was shown and when. A phase has exactly one course, and running the guardrails follows
it to its end: every guardrail has a limit, so that no phase waits for ever.
-/

namespace SqlGate

namespace Guardrail

/-- How the decision of a guardrail on a text comes out, which it is asked for at an instant and in
a context, and when. -/
inductive Decides (c : Context) (g : Guardrail) (text : String) (t : Instant) :
    Except Fault Response → Instant → Prop where
  | atOnce {cause : Cause} (h : g.fate text = .failsAtOnce cause) :
    Decides c g text t (.error ⟨g.name, cause⟩) t
  | inTime {delay : Option Nat} {decision : Except Cause Response} {t' : Instant}
    (h : g.fate text = .decides delay decision)
    (hw : c.await none t (delay.map (t + ·)) = some (t', none)) :
    Decides c g text t (decision.mapError (Fault.mk g.name)) t'
  | late {delay : Option Nat} {decision : Except Cause Response} {t' : Instant}
    {e : Context.Ending} (h : g.fate text = .decides delay decision)
    (hw : c.await none t (delay.map (t + ·)) = some (t', some e)) :
    Decides c g text t (.error ⟨g.name, .ofEnding e⟩) t'

/-- What the guardrails of a list come to, from an instant on: what is seen of them, and the text
that is left or the failure that ended it, and when. There is neither if a limit cannot be
counted. -/
inductive Course (c : Context) (phase : Phase) :
    List Entry → String → Instant → List Work.Entry → Option (Except Fault String) → Instant →
      Prop where
  | done (text : String) (t : Instant) : Course c phase [] text t [] (some (.ok text)) t
  | skipped {e : Entry} {es : List Entry} {text : String} {t t' : Instant}
    {seen : List Work.Entry} {v : Option (Except Fault String)}
    (hm : e.pattern.isMatch text = false) (rest : Course c phase es text t seen v t') :
    Course c phase (e :: es) text t seen v t'
  | uncountable {e : Entry} (es : List Entry) {text : String} {t : Instant}
    (hm : e.pattern.isMatch text = true) (hl : Clock.after? t e.timeout = none) :
    Course c phase (e :: es) text t [] none t
  | stopped {e : Entry} (es : List Entry) {text : String} {t t' limit : Instant}
    {decision : Except Fault Response} {why : Fault}
    (hm : e.pattern.isMatch text = true) (hl : Clock.after? t e.timeout = some limit)
    (hd : Decides (c.within (some limit)) e.guardrail text t decision t')
    (hr : decision.bind (fun r => r.apply phase e.guardrail.name text) = .error why) :
    Course c phase (e :: es) text t [⟨t, .consulted e.guardrail.name text⟩] (some (.error why)) t'
  | accepted {e : Entry} {es : List Entry} {text : String} {t t₁ t' limit : Instant} {r : Response}
    {seen : List Work.Entry} {v : Option (Except Fault String)}
    (hm : e.pattern.isMatch text = true) (hl : Clock.after? t e.timeout = some limit)
    (hd : Decides (c.within (some limit)) e.guardrail text t (.ok r) t₁) (ha : r.accept = true)
    (rest : Course c phase es ((r.replacement phase).getD text) t₁ seen v t') :
    Course c phase (e :: es) text t (⟨t, .consulted e.guardrail.name text⟩ :: seen) v t'

variable {c : Context} {g : Guardrail} {phase : Phase} {text : String} {t : Instant}

/-! ## One decision -/

theorem Decides.unique {d d' : Except Fault Response} {t₁ t₂ : Instant}
    (h : Decides c g text t d t₁) (h' : Decides c g text t d' t₂) : d = d' ∧ t₁ = t₂ := by
  cases h with
  | atOnce h =>
      cases h' with
      | atOnce h' => simp_all
      | inTime h' _ => simp_all
      | late h' _ => simp_all
  | inTime h hw =>
      cases h' with
      | atOnce h' => simp_all
      | inTime h' hw' => simp_all
      | late h' hw' => simp_all
  | late h hw =>
      cases h' with
      | atOnce h' => simp_all
      | inTime h' hw' => simp_all
      | late h' hw' => simp_all

/-- In a context that ends, every decision comes out. -/
theorem exists_decides (g : Guardrail) (text : String) (t : Instant) (h : c.endsAt.isSome) :
    ∃ d t', Decides c g text t d t' := by
  cases hf : g.fate text with
  | failsAtOnce cause => exact ⟨_, _, .atOnce hf⟩
  | decides delay decision =>
      obtain ⟨⟨t', ending⟩, hw⟩ :=
        Option.isSome_iff_exists.1 (Context.await_isSome t (delay.map (t + ·)) h)
      cases ending with
      | none => exact ⟨_, _, .inTime hf hw⟩
      | some e => exact ⟨_, _, .late hf hw⟩

/-- A decision after which there is a text accepts, and gives that text. -/
theorem accepted_of_bind {d : Except Fault Response} {name text' : String}
    (h : d.bind (fun r => r.apply phase name text) = .ok text') :
    ∃ r, d = .ok r ∧ r.accept = true ∧ (r.replacement phase).getD text = text' := by
  cases d with
  | error why => cases h
  | ok r =>
      change r.apply phase name text = .ok text' at h
      unfold Response.apply at h
      cases ha : r.accept with
      | false => simp [ha] at h
      | true => exact ⟨r, rfl, ha, by simpa [ha] using h⟩

end Guardrail

namespace Work

open Guardrail

variable {α : Type} {c : Context} {g : Guardrail} {text : String} {t t' limit : Instant}

/-- Work that shows a text to a guardrail goes on with how the decision comes out. -/
theorem run_consult (b : Backend) (next : Except Guardrail.Fault Response → Work α)
    {d : Except Guardrail.Fault Response} (h : Decides (c.within (some limit)) g text t d t') :
    run c b none (.consult g text limit next) t =
      preceded [⟨t, .consulted g.name text⟩] (run c b none (next d) t') := by
  cases h with
  | atOnce h => rw [run_consult_atOnce c b none limit next h]
  | inTime h hw => rw [run_consult_decided c b none next h hw]
  | late h hw => rw [run_consult_late c b none next h hw]

end Work

namespace Guardrail

/-! ## All of them -/

variable {c : Context} {phase : Phase} {text : String} {t : Instant}

/-- What is seen of a phase is what its guardrails are shown. -/
theorem Course.seen {es : List Entry} {seen : List Work.Entry} {v : Option (Except Fault String)}
    {t' : Instant} (h : Course c phase es text t seen v t') :
    ∀ x ∈ seen, ∃ name payload, x.event = .consulted name payload := by
  induction h with
  | done text t => simp
  | skipped hm rest ih => exact ih
  | uncountable es hm hl => simp
  | stopped es hm hl hd hr => simp
  | accepted hm hl hd ha rest ih =>
      intro x hx
      rcases List.mem_cons.1 hx with rfl | hx
      · exact ⟨_, _, rfl⟩
      · exact ih x hx

/-- A phase has one course at most. -/
theorem Course.unique {es : List Entry} {seen seen' : List Work.Entry}
    {v v' : Option (Except Fault String)} {t₁ t₂ : Instant}
    (h : Course c phase es text t seen v t₁) (h' : Course c phase es text t seen' v' t₂) :
    seen = seen' ∧ v = v' ∧ t₁ = t₂ := by
  induction h generalizing seen' v' t₂ with
  | done text t =>
      cases h'
      exact ⟨rfl, rfl, rfl⟩
  | skipped hm rest ih =>
      cases h' with
      | skipped hm' rest' => exact ih rest'
      | uncountable _ hm' _ => simp [hm] at hm'
      | stopped _ hm' _ _ _ => simp [hm] at hm'
      | accepted hm' _ _ _ _ => simp [hm] at hm'
  | uncountable es hm hl =>
      cases h' with
      | skipped hm' _ => simp [hm] at hm'
      | uncountable _ _ _ => exact ⟨rfl, rfl, rfl⟩
      | stopped _ _ hl' _ _ => simp [hl] at hl'
      | accepted _ hl' _ _ _ => simp [hl] at hl'
  | stopped es hm hl hd hr =>
      cases h' with
      | skipped hm' _ => simp [hm] at hm'
      | uncountable _ _ hl' => simp [hl] at hl'
      | stopped _ _ hl' hd' hr' =>
          obtain rfl := Option.some.inj (hl.symm.trans hl')
          obtain ⟨rfl, rfl⟩ := hd.unique hd'
          simp_all
      | accepted _ hl' hd' ha' _ =>
          obtain rfl := Option.some.inj (hl.symm.trans hl')
          obtain ⟨rfl, -⟩ := hd.unique hd'
          simp [Except.bind, Response.apply, ha'] at hr
  | accepted hm hl hd ha rest ih =>
      cases h' with
      | skipped hm' _ => simp [hm] at hm'
      | uncountable _ _ hl' => simp [hl] at hl'
      | stopped _ _ hl' hd' hr' =>
          obtain rfl := Option.some.inj (hl.symm.trans hl')
          obtain ⟨rfl, -⟩ := hd.unique hd'
          simp [Except.bind, Response.apply, ha] at hr'
      | accepted _ hl' hd' _ rest' =>
          obtain rfl := Option.some.inj (hl.symm.trans hl')
          obtain ⟨hr, rfl⟩ := hd.unique hd'
          obtain rfl := Except.ok.inj hr
          obtain ⟨rfl, hv, ht⟩ := ih rest'
          exact ⟨rfl, hv, ht⟩

/-- What a phase leaves of the transaction that it runs in, if it breaks off. -/
def remains (phase : Phase) (t : Instant) (brokenOff : Bool) : List Work.Entry :=
  if brokenOff then Work.dropIf phase.inTransaction t else []

theorem run_entry_none (c : Context) (b : Backend) (phase : Phase) {e : Entry} (text : String)
    (hl : Clock.after? t e.timeout = none) :
    Work.run c b none (e.consult phase text).run t =
      (Work.dropIf phase.inTransaction t, .ended t none) := by
  change Work.run c b none (.deadline _ _ _) t = _
  rw [Work.run_deadline_none c b none _ _ hl]

theorem run_entry_some (b : Backend) (phase : Phase) {e : Entry} {limit t' : Instant}
    {d : Except Fault Response} (hl : Clock.after? t e.timeout = some limit)
    (hd : Decides (c.within (some limit)) e.guardrail text t d t') :
    Work.run c b none (e.consult phase text).run t =
      ([⟨t, .consulted e.guardrail.name text⟩],
        .ended t' (some (d.bind fun r => r.apply phase e.guardrail.name text))) := by
  change Work.run c b none (.deadline _ _ _) t = _
  rw [Work.run_deadline_some c b none _ _ hl, Work.run_consult b _ hd]
  rfl

/-- Asking the guardrails of a phase follows the course of it. -/
theorem run_consultAll (c : Context) (b : Backend) (phase : Phase) (es : List Entry)
    (text : String) (t : Instant) :
    ∃ seen v t', Course c phase es text t seen v t' ∧
      Work.run c b none (consultAll phase es text).run t =
        (seen ++ remains phase t' v.isNone, .ended t' v) := by
  induction es generalizing text t with
  | nil => exact ⟨[], _, t, .done text t, rfl⟩
  | cons e es ih =>
      cases hm : e.pattern.isMatch text with
      | false =>
          obtain ⟨seen, v, t', hc, hr⟩ := ih text t
          refine ⟨seen, v, t', .skipped hm hc, ?_⟩
          rw [consultAll, hm]
          exact hr
      | true =>
          rw [consultAll, if_pos hm]
          cases hl : Clock.after? t e.timeout with
          | none =>
              refine ⟨[], none, t, .uncountable es hm hl, ?_⟩
              exact Work.run_attempt_bind_none _ (run_entry_none c b phase text hl)
          | some limit =>
              obtain ⟨d, t₁, hd⟩ :=
                exists_decides e.guardrail text t (c.endsAt_within_isSome limit)
              have hrun := run_entry_some b phase hl hd
              cases hr : d.bind (fun r => r.apply phase e.guardrail.name text) with
              | error why =>
                  rw [hr] at hrun
                  refine ⟨_, _, t₁, .stopped es hm hl hd hr, ?_⟩
                  exact Work.run_attempt_bind_error _ hrun
              | ok text' =>
                  rw [hr] at hrun
                  obtain ⟨r, rfl, ha, rfl⟩ := accepted_of_bind hr
                  obtain ⟨seen, v, t', hc, hrest⟩ := ih _ t₁
                  refine ⟨_, v, t', .accepted hm hl hd ha hc, ?_⟩
                  rw [Work.run_attempt_bind_ok _ hrun, hrest]
                  rfl

end Guardrail

end SqlGate
