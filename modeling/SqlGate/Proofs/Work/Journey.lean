import Mathlib.Logic.Relation
import SqlGate.Proofs.Work.Proper

/-!
# Calls on their way

A call that has got its slot goes on for a while, and its context may be cancelled on the way: at
any instant, after all that could happen at that instant. A `Journey` is where such a call has come
to. Whatever happens to it, the database was asked only while the context was live
(`Journey.Reaches.sound`), it is asked for nothing any more once the context is over
(`Journey.Reaches.asked_eq`), and then the call comes to its end (`Journey.Sound.pass_over`).
-/

namespace SqlGate

namespace Work

/-- What the database was asked for, among what was seen. -/
def requests (entries : List Entry) : List Entry :=
  entries.filter fun x => match x.event with
    | .asked _ => true
    | _ => false

theorem mem_requests {entries : List Entry} {x : Entry} :
    x ∈ requests entries ↔ x ∈ entries ∧ ∃ op, x.event = .asked op := by
  unfold requests
  rw [List.mem_filter]
  cases x.event <;> simp

end Work

/-- Where a call has come to that has its slot. -/
structure Journey (α : Type) where
  context : Context
  now : Instant
  seen : List Work.Entry
  progress : Work.Progress α

namespace Journey

open Work

variable {α : Type} {b : Backend} {c : Context} {start later e : Instant} {j j' : Journey α}

/-- A call begins its work: all that can happen at that instant happens. -/
def begin (c : Context) (b : Backend) (w : Work α) (start : Instant) : Journey α :=
  let r := run c b (some start) w start
  ⟨c, start, r.1, r.2⟩

/-- The context is cancelled, and nothing has come of it yet. -/
def cancel (j : Journey α) : Journey α := { j with context := j.context.cancel j.now }

/-- Time passes. -/
def pass (j : Journey α) (b : Backend) (later : Instant) : Journey α :=
  match j.progress with
  | .ended _ _ => { j with now := later }
  | .waiting p =>
    let r := p.resume j.context b (some later) j.now
    ⟨j.context, later, j.seen ++ r.1, r.2⟩

/-- What can happen to a call. -/
inductive Step (b : Backend) (j : Journey α) : Journey α → Prop where
  | cancel : Step b j j.cancel
  | pass (later : Instant) (hle : j.now ≤ later) : Step b j (j.pass b later)

/-- What a call can come to. -/
def Reaches (b : Backend) : Journey α → Journey α → Prop := Relation.ReflTransGen (Step b)

/-- What the database was asked for. -/
def asked (j : Journey α) : List Entry := requests j.seen

/-- The context is over. -/
def IsOver (j : Journey α) : Prop := (j.context.status j.now).isSome

/-- A call that began in a context at an instant: its context is that one, or was cancelled on the
way, and has had nothing begun in it since then. -/
structure Sound (c : Context) (start : Instant) (j : Journey α) : Prop where
  le : start ≤ j.now
  context : ∀ t, j.context.status t = none → c.status t = none
  asked : ∀ x ∈ j.asked, start ≤ x.time ∧ x.time ≤ j.now ∧ c.status x.time = none ∧
    ∀ k, j.context.cancelledAt = some k → x.time ≤ k
  waiting : ∀ p, j.progress = .waiting p → p.Sound j.now

theorem sound_begin {w : Work α} (hw : w.Restless) : (begin c b w start).Sound c start := by
  have hr : Proper c start start (run c b (some start) w start) := run_proper hw le_rfl
  refine ⟨le_rfl, fun t ht => ht, fun x hx => ?_, fun p hp => (hr.waiting p hp).2⟩
  obtain ⟨hx, op, hop⟩ := mem_requests.1 hx
  have hlive : c.status x.time = none := hr.live x hx op hop
  exact ⟨(hr.le x hx).1, (hr.le x hx).2, hlive, fun k hk => (Context.lt_cancelledAt hlive hk).le⟩

theorem Sound.cancel (h : j.Sound c start) : j.cancel.Sound c start where
  le := h.le
  context t ht := h.context t (Context.status_of_cancel ht)
  asked x hx := by
    obtain ⟨hle, hnow, hlive, hk⟩ := h.asked x hx
    refine ⟨hle, hnow, hlive, fun k hc => ?_⟩
    change Clock.earlier j.context.cancelledAt (some j.now) = some k at hc
    cases hj : j.context.cancelledAt with
    | none =>
        rw [hj] at hc
        exact Option.some.inj hc ▸ hnow
    | some k' =>
        rw [hj] at hc
        exact Option.some.inj hc ▸ le_min (hk k' hj) hnow
  waiting := h.waiting

/-- While time passes, the database is asked only as long as the context is live. -/
theorem Sound.exists_asked_pass (h : j.Sound c start) (hle : j.now ≤ later) :
    ∃ more, (j.pass b later).asked = j.asked ++ more ∧
      ∀ x ∈ more, j.now ≤ x.time ∧ x.time ≤ later ∧ j.context.status x.time = none := by
  cases hp : j.progress with
  | ended t v =>
      rw [pass, hp]
      exact ⟨[], (List.append_nil _).symm, nofun⟩
  | waiting p =>
      have hr : Proper j.context j.now later (p.resume j.context b (some later) j.now) :=
        (h.waiting p hp).resume hle
      rw [pass, hp]
      refine ⟨requests (p.resume j.context b (some later) j.now).1, List.filter_append .., ?_⟩
      intro x hx
      obtain ⟨hx, op, hop⟩ := mem_requests.1 hx
      exact ⟨(hr.le x hx).1, (hr.le x hx).2, hr.live x hx op hop⟩

@[simp] theorem pass_context (j : Journey α) (b : Backend) (later : Instant) :
    (j.pass b later).context = j.context := by
  unfold pass
  split <;> rfl

@[simp] theorem pass_now (j : Journey α) (b : Backend) (later : Instant) :
    (j.pass b later).now = later := by
  unfold pass
  split <;> rfl

theorem Sound.pass (h : j.Sound c start) (hle : j.now ≤ later) :
    (j.pass b later).Sound c start where
  le := (pass_now j b later).symm ▸ h.le.trans hle
  context := (pass_context j b later).symm ▸ h.context
  asked x hx := by
    obtain ⟨more, hmore, hlive⟩ := h.exists_asked_pass (b := b) hle
    rw [hmore] at hx
    rw [pass_now, pass_context]
    rcases List.mem_append.1 hx with hx | hx
    · obtain ⟨hstart, hnow, hc, hk⟩ := h.asked x hx
      exact ⟨hstart, hnow.trans hle, hc, hk⟩
    · obtain ⟨hnow, hlater, hs⟩ := hlive x hx
      exact ⟨h.le.trans hnow, hlater, h.context _ hs, fun k hk => (Context.lt_cancelledAt hs hk).le⟩
  waiting p hp := by
    rw [pass_now]
    cases hj : j.progress with
    | ended t v =>
        rw [Journey.pass, hj] at hp
        cases hp
    | waiting p' =>
        rw [Journey.pass, hj] at hp
        exact (((h.waiting p' hj).resume (c := j.context) (b := b) hle).waiting p hp).2

theorem Reaches.sound (hj : Reaches b j j') (h : j.Sound c start) : j'.Sound c start := by
  induction hj with
  | refl => exact h
  | tail _ hstep ih =>
      cases hstep with
      | cancel => exact ih.cancel
      | pass later hle => exact ih.pass hle

/-! ## Once the context is over -/

theorem IsOver.of_le {t : Instant} (h : j.IsOver) (hle : j.now ≤ t) :
    (j.context.status t).isSome := by
  by_contra hc
  rw [Option.not_isSome_iff_eq_none] at hc
  exact absurd (j.context.status_eq_none_of_le hle hc) (Option.isSome_iff_ne_none.1 h)

theorem IsOver.cancel (h : j.IsOver) : j.cancel.IsOver := by
  by_contra hc
  have hlive : j.context.status j.now = none :=
    Context.status_of_cancel (Option.not_isSome_iff_eq_none.1 hc)
  exact absurd hlive (Option.isSome_iff_ne_none.1 h)

/-- The database is asked for nothing any more. -/
theorem Reaches.asked_eq (hj : Reaches b j j') (h : j.Sound c start) (hover : j.IsOver) :
    j'.asked = j.asked ∧ j'.IsOver := by
  induction hj with
  | refl => exact ⟨rfl, hover⟩
  | @tail j₁ j₂ hreach hstep ih =>
      obtain ⟨hasked, hover₁⟩ := ih
      cases hstep with
      | cancel => exact ⟨hasked, hover₁.cancel⟩
      | pass later hle =>
          obtain ⟨more, hmore, hlive⟩ := (Reaches.sound hreach h).exists_asked_pass (b := b) hle
          have hnil : more = [] := List.eq_nil_iff_forall_not_mem.2 fun x hx =>
            absurd (hlive x hx).2.2 (Option.isSome_iff_ne_none.1 (hover₁.of_le (hlive x hx).1))
          refine ⟨by rw [hmore, hnil, List.append_nil, hasked], ?_⟩
          unfold IsOver
          rw [pass_context, pass_now]
          exact hover₁.of_le hle

/-- A call comes to its end when the context does. -/
theorem Sound.pass_over (h : j.Sound c start) (he : j.context.endsAt = some e) (hle : e ≤ later)
    (hnow : j.now ≤ later) {p : Pending α} (hp : j.progress = .waiting p) :
    ∃ t v, (j.pass b later).progress = .ended t v ∧ t ≤ max j.now e := by
  have hr := (h.waiting p hp).resume (c := j.context) (b := b) hnow
  rw [Journey.pass, hp]
  dsimp only
  cases hend : (p.resume j.context b (some later) j.now).2 with
  | ended t v => exact ⟨t, v, rfl, (hr.ended t v hend).2 e he⟩
  | waiting p' =>
      have hlive : j.context.status later = none := (hr.waiting p' hend).1
      exact absurd ((j.context.status_eq_none_iff later).1 hlive e he) (not_lt.2 hle)

end Journey

end SqlGate
