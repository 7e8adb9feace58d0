import SqlGate.Proofs.Context.Await
import SqlGate.Proofs.Work.Run

/-!
# Work begun later

Work looks at the clock only to find out how long from now it may take. So begun some time later it
does the same, all of it later by that time: `Delayed` relates work to the same work later, and
`Delayed.run` its runs. The one thing that can come between is that the clock does not count the
instant at which some limit ends. Then the later run breaks off, and says when.
-/

namespace SqlGate

variable {k : Nat}

namespace Clock

/-- An instant some time later, if it comes at all. -/
def delay (k : Nat) (t : Option Instant) : Option Instant := t.map (· + k)

theorem delay_earlier (k : Nat) (a b : Option Instant) :
    delay k (earlier a b) = earlier (delay k a) (delay k b) := by
  cases a with
  | none => rfl
  | some x =>
      cases b with
      | none => rfl
      | some y => exact congrArg some (Nat.add_min_add_right x y k).symm

theorem hasCome_delay (k : Nat) (a : Option Instant) (now : Instant) :
    hasCome (delay k a) (now + k) = hasCome a now := by
  cases a <;> simp [hasCome, delay]

/-- The instant that is a span later is later by as much, if the clock counts so far. -/
theorem after?_delay (k now : Nat) (d : Duration) :
    after? (now + k) d = delay k (after? now d) ∨ after? (now + k) d = none := by
  by_cases h : (now + k) / 1000 + d.secs < seconds
  · have hle : now / 1000 ≤ (now + k) / 1000 := Nat.div_le_div_right (Nat.le_add_right now k)
    have hsmall : now / 1000 + d.secs < seconds := by omega
    rw [after?, after?, if_pos h, if_pos hsmall]
    exact .inl (congrArg some (Nat.add_right_comm now k (ceilMillis d)))
  · exact .inr (if_neg h)

end Clock

namespace Context

/-- A context in which all is later by some time. -/
def delay (k : Nat) (c : Context) : Context :=
  ⟨Clock.delay k c.deadline, Clock.delay k c.cancelledAt⟩

@[simp] theorem delay_unbounded (k : Nat) : unbounded.delay k = unbounded := rfl

theorem within_delay (c : Context) (k : Nat) (limit : Option Instant) :
    (c.delay k).within (Clock.delay k limit) = (c.within limit).delay k := by
  simp [delay, within, Clock.delay_earlier]

@[simp] theorem status_delay (c : Context) (k now : Nat) :
    (c.delay k).status (now + k) = c.status now := by
  simp only [status, delay, Clock.hasCome_delay]

theorem endsAt_delay (c : Context) (k : Nat) : (c.delay k).endsAt = Clock.delay k c.endsAt :=
  (Clock.delay_earlier k _ _).symm

/-- What comes first comes first some time later as well. -/
theorem race_delay (c : Context) (k : Nat) (due : Option Instant) :
    (c.delay k).race (Clock.delay k due) = (c.race due).map (Prod.map (· + k) id) := by
  unfold race
  rw [endsAt_delay]
  cases c.endsAt with
  | none => cases due <;> rfl
  | some e =>
      cases due with
      | none => simp [Clock.delay]
      | some d =>
          by_cases hle : e ≤ d
          · simp [Clock.delay, hle]
          · simp [Clock.delay, hle]

theorem await_delay (c : Context) (k now : Nat) (due : Option Instant) :
    (c.delay k).await none (now + k) (Clock.delay k due) =
      (c.await none now due).map (Prod.map (· + k) id) := by
  cases hs : c.status now with
  | some e =>
      have hover : ∀ {c : Context} {t : Instant} {due : Option Instant}, c.status t = some e →
          c.await none t due = some (t, some e) := by
        intro c t due hc
        rw [await, hc]
        rfl
      rw [hover hs, hover (by rw [status_delay, hs])]
      rfl
  | none =>
      rw [await_of_live hs, await_of_live (by rw [status_delay, hs]), race_delay]

end Context

namespace Work

variable {α β ε : Type} {S : Duration → Prop}

/-- The second work does what the first one does, some time later. All limits that they look for are
of a kind. -/
inductive Delayed (S : Duration → Prop) (k : Nat) : Work α → Work α → Prop where
  | done (a : α) : Delayed S k (.done a) (.done a)
  | deadline {span : Duration} (inside : Bool) {next next' : Instant → Work α} (hs : S span)
    (h : ∀ t, Delayed S k (next t) (next' (t + k))) :
    Delayed S k (.deadline span inside next) (.deadline span inside next')
  | perform (op : Backend.Operation) (limit : Option Instant) {next next' : Reply op.Answer → Work α}
    (h : ∀ r, Delayed S k (next r) (next' r)) :
    Delayed S k (.perform op limit next) (.perform op (Clock.delay k limit) next')
  | consult (g : Guardrail) (payload : String) (limit : Instant)
    {next next' : Except Guardrail.Fault Guardrail.Response → Work α}
    (h : ∀ d, Delayed S k (next d) (next' d)) :
    Delayed S k (.consult g payload limit next) (.consult g payload (limit + k) next')

theorem Delayed.bind {w w' : Work α} {f f' : α → Work β} (hw : Delayed S k w w')
    (hf : ∀ a, Delayed S k (f a) (f' a)) : Delayed S k (w >>= f) (w' >>= f') := by
  induction hw with
  | done a => exact hf a
  | deadline inside hs _ ih => exact .deadline inside hs ih
  | perform op limit _ ih => exact .perform op limit ih
  | consult g payload limit _ ih => exact .consult g payload limit ih

/-- An attempt after another is later if both are. -/
theorem Delayed.attempt_bind {x x' : ExceptT ε Work α} {f f' : α → ExceptT ε Work β}
    (hx : Delayed S k x.run x'.run) (hf : ∀ a, Delayed S k (f a).run (f' a).run) :
    Delayed S k (x >>= f).run (x' >>= f').run := by
  rw [ExceptT.run_bind, ExceptT.run_bind]
  refine hx.bind fun d => ?_
  cases d with
  | ok a => exact hf a
  | error why => exact .done _

/-- Work that was begun at an instant broke off because the clock does not count the end of a
limit. -/
def BreaksOff (S : Duration → Prop) (r : List Entry × Progress α) : Prop :=
  ∃ entries t span, r = (entries, .ended t none) ∧ S span ∧ Clock.after? t span = none

/-- Work that is begun some time later comes to the same, later by that time; or it breaks off. -/
inductive Follows (S : Duration → Prop) (k : Nat) :
    List Entry × Progress α → List Entry × Progress α → Prop where
  | ended (entries entries' : List Entry) (t : Instant) (v : Option α) :
    Follows S k (entries, .ended t v) (entries', .ended (t + k) v)
  | waiting (entries entries' : List Entry) (p p' : Pending α) :
    Follows S k (entries, .waiting p) (entries', .waiting p')
  | brokeOff (r : List Entry × Progress α) {r' : List Entry × Progress α} (h : BreaksOff S r') :
    Follows S k r r'

theorem Follows.preceded {r r' : List Entry × Progress α} (h : Follows S k r r')
    (entries entries' : List Entry) : Follows S k (preceded entries r) (preceded entries' r') := by
  cases h with
  | ended seen seen' t v => exact .ended _ _ t v
  | waiting seen seen' p p' => exact .waiting _ _ p p'
  | brokeOff r h =>
      obtain ⟨more, t, span, rfl, hs, ht⟩ := h
      exact .brokeOff _ ⟨entries' ++ more, t, span, rfl, hs, ht⟩

/-- Work comes to what the same work comes to that is begun earlier, or it breaks off. -/
theorem Delayed.run {w w' : Work α} (h : Delayed S k w w') (c : Context) (b : Backend)
    (now : Instant) :
    Follows S k (Work.run c b none w now) (Work.run (c.delay k) b none w' (now + k)) := by
  have hdue : ∀ (now : Instant) (delay : Option Nat),
      delay.map (now + k + ·) = Clock.delay k (delay.map (now + ·)) := by
    intro now delay
    cases delay with
    | none => rfl
    | some d => exact congrArg some (Nat.add_right_comm now k d)
  induction h generalizing now with
  | done v => exact .ended [] [] now (some v)
  | @deadline span inside next next' hs _ ih =>
      rcases Clock.after?_delay k now span with hlater | hlater
      · cases hl : Clock.after? now span with
        | none =>
            rw [run_deadline_none c b none _ _ hl,
              run_deadline_none _ b none _ _ (hlater.trans (by rw [hl]; rfl))]
            exact .ended _ _ now none
        | some d =>
            rw [run_deadline_some c b none _ _ hl,
              run_deadline_some _ b none _ _ (hlater.trans (by rw [hl]; rfl))]
            exact ih d now
      · rw [run_deadline_none _ b none _ _ hlater]
        exact .brokeOff _ ⟨_, _, span, rfl, hs, hlater⟩
  | @perform op limit next next' _ ih =>
      have hstatus := (c.within limit).status_delay k now
      have hawait := (c.within limit).await_delay k now ((b.behaviour op).delay.map (now + ·))
      rw [← Context.within_delay] at hstatus hawait
      rw [← hdue] at hawait
      cases hs : (c.within limit).status now with
      | some e =>
          rw [run_perform_over c b none _ hs, run_perform_over _ b none _ (hstatus.trans hs)]
          exact (ih _ now).preceded _ _
      | none =>
          cases hw : (c.within limit).await none now ((b.behaviour op).delay.map (now + ·)) with
          | none =>
              rw [hw] at hawait
              rw [run_perform_waiting c b none _ hs hw,
                run_perform_waiting _ b none _ (hstatus.trans hs) hawait]
              exact .waiting _ _ _ _
          | some outcome =>
              obtain ⟨d, ending⟩ := outcome
              rw [hw] at hawait
              cases ending with
              | none =>
                  rw [run_perform_answered c b none _ hs hw,
                    run_perform_answered _ b none _ (hstatus.trans hs) hawait]
                  exact (ih _ d).preceded _ _
              | some e =>
                  rw [run_perform_late c b none _ hs hw,
                    run_perform_late _ b none _ (hstatus.trans hs) hawait]
                  exact (ih _ d).preceded _ _
  | @consult g payload limit next next' _ ih =>
      cases hf : g.fate payload with
      | failsAtOnce cause =>
          rw [run_consult_atOnce c b none _ _ hf, run_consult_atOnce _ b none _ _ hf]
          exact (ih _ now).preceded _ _
      | decides delay decision =>
          have hawait := (c.within (some limit)).await_delay k now (delay.map (now + ·))
          rw [← Context.within_delay, ← hdue] at hawait
          cases hw : (c.within (some limit)).await none now (delay.map (now + ·)) with
          | none =>
              rw [hw] at hawait
              rw [run_consult_waiting c b none _ hf hw, run_consult_waiting _ b none _ hf hawait]
              exact .waiting _ _ _ _
          | some outcome =>
              obtain ⟨d, ending⟩ := outcome
              rw [hw] at hawait
              cases ending with
              | none =>
                  rw [run_consult_decided c b none _ hf hw, run_consult_decided _ b none _ hf hawait]
                  exact (ih _ d).preceded _ _
              | some e =>
                  rw [run_consult_late c b none _ hf hw, run_consult_late _ b none _ hf hawait]
                  exact (ih _ d).preceded _ _

end Work

end SqlGate
