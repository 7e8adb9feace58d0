import SqlGate.Proofs.Session.Exchange

/-!
# Exchanges with a line that is refused

A line that says no request is refused, and nothing else comes of it. An exchange with such a line in
its input goes as one without it: each state of it is a state of the other one, but for the refusal
on its way (`Beside`), and the other one never does anything that it cannot do too (`Ahead`). At the
end the two differ in one response that was written (`PassesOver`).
-/

namespace SqlGate

open Rpc Session

/-- A list with one more item. -/
def Inserted {α : Type} (x : α) (l l' : List α) : Prop :=
  ∃ before after, l = before ++ after ∧ l' = before ++ x :: after

namespace Inserted

variable {α : Type} {x : α} {l l' : List α}

theorem last (x : α) (l : List α) : Inserted x l (l ++ [x]) := ⟨l, [], (List.append_nil l).symm, rfl⟩

theorem append (h : Inserted x l l') (m : List α) : Inserted x (l ++ m) (l' ++ m) := by
  obtain ⟨before, after, rfl, rfl⟩ := h
  exact ⟨before, after ++ m, List.append_assoc _ _ _, by rw [List.append_assoc]; rfl⟩

theorem prepend (h : Inserted x l l') (m : List α) : Inserted x (m ++ l) (m ++ l') := by
  obtain ⟨before, after, rfl, rfl⟩ := h
  exact ⟨m ++ before, after, (List.append_assoc _ _ _).symm, (List.append_assoc _ _ _).symm⟩

theorem length (h : Inserted x l l') : l'.length = l.length + 1 := by
  obtain ⟨before, after, rfl, rfl⟩ := h
  simp only [List.length_append, List.length_cons]
  omega

/-- The item that is more is the first one, or stands behind the first one. -/
theorem of_cons {y : α} (h : Inserted x l (y :: l')) :
    y = x ∧ l' = l ∨ ∃ m, l = y :: m ∧ Inserted x m l' := by
  obtain ⟨before, after, rfl, hl'⟩ := h
  cases before with
  | nil =>
      cases hl'
      exact .inl ⟨rfl, rfl⟩
  | cons b before =>
      cases hl'
      exact .inr ⟨before ++ after, rfl, before, after, rfl, rfl⟩

end Inserted

namespace Exchange

variable {name line : String} {after : List String} {r : Response} {e e₁ f f₁ : Exchange}

/-! ## With the line as without it -/

/-- The second exchange is the first one with a line in its input, before some others, or with the
refusal of that line on its way or written. -/
inductive Beside (line : String) (r : Response) (after : List String) :
    Exchange → Exchange → Prop where
  | unread {e : Exchange} {before : List String} (h : e.unread = before ++ after) :
    Beside line r after e { e with unread := before ++ line :: after }
  | held {e : Exchange} {record : List Event} (h : e.held = none)
    (hrecord : Inserted (.heard line (.refused r)) e.record record) :
    Beside line r after e { e with held := some r, record }
  | channel {e : Exchange} {channel : List Response} {record : List Event}
    (h : Inserted r e.channel channel)
    (hrecord : Inserted (.heard line (.refused r)) e.record record) :
    Beside line r after e { e with channel, record }
  | written {e : Exchange} {written : List Response} {record : List Event}
    (h : Inserted r e.written written)
    (hrecord : Inserted (.heard line (.refused r)) e.record record) :
    Beside line r after e { e with written, record }

theorem hear_refused (hline : ∀ s : Session, s.hear line = (s, .refused r)) (e : Exchange)
    (rest : List String) : e.hear line rest =
      { e with
        unread := rest
        held := some r
        record := e.record ++ [.heard line (.refused r)] } := by
  unfold hear
  rw [hline]
  simp only [toHandle, List.append_nil]
  rfl

section Step

variable (hline : ∀ s : Session, s.hear line = (s, .refused r))
include hline

theorem Beside.step_unread {before : List String} (h : e.unread = before ++ after)
    (hstep : Step name { e with unread := before ++ line :: after } f₁) :
    ∃ e₁, (e₁ = e ∨ Step name e e₁) ∧ Beside line r after e₁ f₁ := by
  cases hstep with
  | hear hunread hheld =>
      cases before with
      | nil =>
          obtain ⟨unread, session, running, ended, held, ready, channel, written, record⟩ := e
          cases h
          cases hunread
          rw [hear_refused hline]
          exact ⟨_, .inl rfl, .held hheld (.last _ record)⟩
      | cons l before =>
          obtain ⟨rfl, rfl⟩ := List.cons.inj hunread
          exact ⟨e.hear l (before ++ after), .inr (.hear h hheld), .unread rfl⟩
  | conclude hrun ho => exact ⟨_, .inr (.conclude hrun ho), .unread h⟩
  | respond hended => exact ⟨_, .inr (.respond hended), .unread h⟩
  | offer hheld hroom => exact ⟨_, .inr (.offer hheld hroom), .unread h⟩
  | send hready hroom => exact ⟨_, .inr (.send hready hroom), .unread h⟩
  | write hchannel => exact ⟨_, .inr (.write hchannel), .unread h⟩

end Step

variable {record : List Event}

/-- While the refusal waits for room, nothing is heard. -/
theorem Beside.step_held (h : e.held = none)
    (hrecord : Inserted (.heard line (.refused r)) e.record record)
    (hstep : Step name { e with held := some r, record } f₁) :
    ∃ e₁, (e₁ = e ∨ Step name e e₁) ∧ Beside line r after e₁ f₁ := by
  cases hstep with
  | hear hunread hheld => cases hheld
  | conclude hrun ho => exact ⟨_, .inr (.conclude hrun ho), .held h (hrecord.append _)⟩
  | respond hended => exact ⟨_, .inr (.respond hended), .held h hrecord⟩
  | offer hheld hroom =>
      obtain ⟨unread, session, running, ended, held, ready, channel, written, record⟩ := e
      cases h
      cases hheld
      exact ⟨_, .inl rfl, .channel (.last r channel) hrecord⟩
  | send hready hroom => exact ⟨_, .inr (.send hready hroom), .held h hrecord⟩
  | write hchannel => exact ⟨_, .inr (.write hchannel), .held h hrecord⟩

theorem Beside.step_channel {channel : List Response} (h : Inserted r e.channel channel)
    (hrecord : Inserted (.heard line (.refused r)) e.record record)
    (hstep : Step name { e with channel, record } f₁) :
    ∃ e₁, (e₁ = e ∨ Step name e e₁) ∧ Beside line r after e₁ f₁ := by
  have hlength := h.length
  cases hstep with
  | hear hunread hheld => exact ⟨_, .inr (.hear hunread hheld), .channel h (hrecord.append _)⟩
  | conclude hrun ho => exact ⟨_, .inr (.conclude hrun ho), .channel h (hrecord.append _)⟩
  | respond hended => exact ⟨_, .inr (.respond hended), .channel h hrecord⟩
  | offer hheld hroom =>
      have hroom' : e.channel.length < room := by
        dsimp only at hroom
        omega
      exact ⟨_, .inr (.offer hheld hroom'), .channel (h.append _) hrecord⟩
  | send hready hroom =>
      have hroom' : e.channel.length < room := by
        dsimp only at hroom
        omega
      exact ⟨_, .inr (.send hready hroom'), .channel (h.append _) hrecord⟩
  | write hchannel =>
      dsimp only at hchannel
      rw [hchannel] at h
      rcases h.of_cons with ⟨rfl, rfl⟩ | ⟨m, hm, h⟩
      · exact ⟨_, .inl rfl, .written (.last _ e.written) hrecord⟩
      · exact ⟨_, .inr (.write hm), .channel h hrecord⟩

theorem Beside.step_written {written : List Response} (h : Inserted r e.written written)
    (hrecord : Inserted (.heard line (.refused r)) e.record record)
    (hstep : Step name { e with written, record } f₁) :
    ∃ e₁, (e₁ = e ∨ Step name e e₁) ∧ Beside line r after e₁ f₁ := by
  cases hstep with
  | hear hunread hheld => exact ⟨_, .inr (.hear hunread hheld), .written h (hrecord.append _)⟩
  | conclude hrun ho => exact ⟨_, .inr (.conclude hrun ho), .written h (hrecord.append _)⟩
  | respond hended => exact ⟨_, .inr (.respond hended), .written h hrecord⟩
  | offer hheld hroom => exact ⟨_, .inr (.offer hheld hroom), .written h hrecord⟩
  | send hready hroom => exact ⟨_, .inr (.send hready hroom), .written h hrecord⟩
  | write hchannel => exact ⟨_, .inr (.write hchannel), .written (h.append _) hrecord⟩

/-- Whatever happens with the line happens without it. -/
theorem Reachable.exists_beside {before : List String}
    (hline : ∀ s : Session, s.hear line = (s, .refused r))
    (h : Reachable name (before ++ line :: after) f) :
    ∃ e, Reachable name (before ++ after) e ∧ Beside line r after e f := by
  induction h with
  | refl => exact ⟨start (before ++ after), .refl, .unread rfl⟩
  | @tail f f₁ _ hstep ih =>
      obtain ⟨e, he, hbeside⟩ := ih
      have hnext : ∃ e₁, (e₁ = e ∨ Step name e e₁) ∧ Beside line r after e₁ f₁ := by
        cases hbeside with
        | unread h => exact Beside.step_unread hline h hstep
        | held h hrecord => exact Beside.step_held h hrecord hstep
        | channel h hrecord => exact Beside.step_channel h hrecord hstep
        | written h hrecord => exact Beside.step_written h hrecord hstep
      obtain ⟨e₁, rfl | hstep', hbeside'⟩ := hnext
      · exact ⟨e₁, he, hbeside'⟩
      · exact ⟨e₁, he.tail hstep', hbeside'⟩

/-! ## Without the line as with it -/

/-- The second exchange is the first one with a line in its input, before some others, or with the
refusal of that line written. It has written everything that it could. -/
inductive Ahead (line : String) (r : Response) (after : List String) :
    Exchange → Exchange → Prop where
  | unread {e : Exchange} {before : List String} {written : List Response}
    (h : e.unread = before ++ after) (hwritten : e.written ++ e.channel = written) :
    Ahead line r after e { e with unread := before ++ line :: after, channel := [], written }
  | written {e : Exchange} {written : List Response} {record : List Event}
    (h : Inserted r (e.written ++ e.channel) written)
    (hrecord : Inserted (.heard line (.refused r)) e.record record) :
    Ahead line r after e { e with channel := [], written, record }

/-- The line is heard and refused, and the refusal written. -/
theorem steps_refuse (name : String) (hline : ∀ s : Session, s.hear line = (s, .refused r))
    (e : Exchange) (hunread : e.unread = line :: after) (hheld : e.held = none)
    (hchannel : e.channel = []) : Relation.ReflTransGen (Step name) e { e with
      unread := after
      written := e.written ++ [r]
      record := e.record ++ [.heard line (.refused r)] } := by
  obtain ⟨unread, session, running, ended, held, ready, channel, written, record⟩ := e
  cases hheld
  refine .head (.hear hunread rfl) ?_
  rw [hear_refused hline]
  exact steps_offer name { unread := after, held := some r, .. } hchannel rfl

theorem Ahead.step_unread (hline : ∀ s : Session, s.hear line = (s, .refused r))
    {before : List String} (h : e.unread = before ++ after) (hstep : Step name e e₁) :
    ∃ f₁, Relation.ReflTransGen (Step name) { e with
        unread := before ++ line :: after
        channel := []
        written := e.written ++ e.channel } f₁ ∧ Ahead line r after e₁ f₁ := by
  cases hstep with
  | @hear l rest hunread hheld =>
      cases before with
      | nil =>
          -- The line is next, and heard before the one that is next without it.
          have hpass := steps_refuse name hline { e with
            unread := line :: after
            channel := []
            written := e.written ++ e.channel } rfl hheld rfl
          exact ⟨_, hpass.tail (.hear (h.symm.trans hunread) hheld),
            .written (.last r _) ((Inserted.last _ e.record).append _)⟩
      | cons l before =>
          rw [hunread, List.cons_append, List.cons.injEq] at h
          obtain ⟨rfl, rfl⟩ := h
          exact ⟨_, .single (.hear rfl hheld), .unread rfl rfl⟩
  | conclude hrun ho => exact ⟨_, .single (.conclude hrun ho), .unread h rfl⟩
  | respond hended => exact ⟨_, .single (.respond hended), .unread h rfl⟩
  | offer hheld hroom =>
      exact ⟨_, steps_offer name _ rfl hheld, .unread h (List.append_assoc _ _ _).symm⟩
  | send hready hroom =>
      exact ⟨_, steps_deliver name _ rfl hready, .unread h (List.append_assoc _ _ _).symm⟩
  | write hchannel =>
      refine ⟨_, .refl, .unread h ?_⟩
      rw [hchannel]
      exact (List.append_cons _ _ _).symm

theorem Ahead.step_written {written : List Response} {record : List Event}
    (h : Inserted r (e.written ++ e.channel) written)
    (hrecord : Inserted (.heard line (.refused r)) e.record record) (hstep : Step name e e₁) :
    ∃ f₁, Relation.ReflTransGen (Step name) { e with channel := [], written, record } f₁ ∧
      Ahead line r after e₁ f₁ := by
  cases hstep with
  | hear hunread hheld => exact ⟨_, .single (.hear hunread hheld), .written h (hrecord.append _)⟩
  | conclude hrun ho => exact ⟨_, .single (.conclude hrun ho), .written h (hrecord.append _)⟩
  | respond hended => exact ⟨_, .single (.respond hended), .written h hrecord⟩
  | @offer r' hheld hroom =>
      have h' := h.append [r']
      rw [List.append_assoc] at h'
      exact ⟨_, steps_offer name _ rfl hheld, .written h' hrecord⟩
  | @send _ _ r' hready hroom =>
      have h' := h.append [r']
      rw [List.append_assoc] at h'
      exact ⟨_, steps_deliver name _ rfl hready, .written h' hrecord⟩
  | write hchannel =>
      rw [hchannel, List.append_cons] at h
      exact ⟨_, .refl, .written h hrecord⟩

/-- Whatever happens without the line can happen with it. -/
theorem Reachable.exists_ahead {before : List String}
    (hline : ∀ s : Session, s.hear line = (s, .refused r))
    (h : Reachable name (before ++ after) e) :
    ∃ f, Reachable name (before ++ line :: after) f ∧ Ahead line r after e f := by
  induction h with
  | refl => exact ⟨start (before ++ line :: after), .refl, .unread rfl rfl⟩
  | @tail e e₁ _ hstep ih =>
      obtain ⟨f, hf, hahead⟩ := ih
      have hnext : ∃ f₁, Relation.ReflTransGen (Step name) f f₁ ∧ Ahead line r after e₁ f₁ := by
        cases hahead with
        | unread h hwritten => exact hwritten ▸ Ahead.step_unread hline h hstep
        | written h hrecord => exact Ahead.step_written h hrecord hstep
      obtain ⟨f₁, hsteps, hahead'⟩ := hnext
      exact ⟨f₁, hf.trans hsteps, hahead'⟩

/-! ## At the end -/

/-- When all is done with the line, all is done without it, and one response more was written. -/
theorem Beside.isOver (h : Beside line r after e f) (hover : f.IsOver) :
    e.IsOver ∧ e.session = f.session ∧ Inserted r e.written f.written := by
  cases h with
  | unread h => exact absurd hover.unread (by simp)
  | held h hrecord => cases hover.held
  | channel h hrecord =>
      have hlength := h.length
      have hempty := hover.channel
      dsimp only at hempty
      rw [hempty] at hlength
      simp at hlength
  | written h hrecord =>
      exact ⟨⟨hover.unread, hover.running, hover.ended, hover.held, hover.ready, hover.channel⟩,
        rfl, h⟩

/-- When all is done without the line, with it no more is to be done than to refuse the line. -/
theorem Ahead.exists_isOver (name : String) (hline : ∀ s : Session, s.hear line = (s, .refused r))
    (h : Ahead line r after e f) (hover : e.IsOver) :
    ∃ f', Relation.ReflTransGen (Step name) f f' ∧ f'.IsOver ∧ f'.session = e.session ∧
      Inserted r e.written f'.written := by
  cases h with
  | unread h hwritten =>
      obtain ⟨rfl, rfl⟩ := List.append_eq_nil_iff.1 (h.symm.trans hover.unread)
      rw [hover.channel, List.append_nil] at hwritten
      subst hwritten
      exact ⟨_, steps_refuse name hline _ rfl hover.held rfl,
        ⟨rfl, hover.running, hover.ended, hover.held, hover.ready, rfl⟩, rfl, .last r _⟩
  | written h hrecord =>
      rw [hover.channel, List.append_nil] at h
      exact ⟨_, .refl, ⟨hover.unread, hover.running, hover.ended, hover.held, hover.ready, rfl⟩,
        rfl, h⟩

/-- Exchanges with a line go as those without it, but that the line is answered. -/
structure PassesOver (name : String) (before : List String) (line : String) (after : List String)
    (r : Response) : Prop where
  beside : ∀ f, Reachable name (before ++ line :: after) f →
    ∃ e, Reachable name (before ++ after) e ∧ Beside line r after e f ∧
      (f.IsOver → e.IsOver ∧ e.session = f.session ∧ Inserted r e.written f.written)
  ahead : ∀ e, Reachable name (before ++ after) e →
    ∃ f, Reachable name (before ++ line :: after) f ∧ Ahead line r after e f ∧
      (e.IsOver → ∃ f', Relation.ReflTransGen (Step name) f f' ∧ f'.IsOver ∧
        f'.session = e.session ∧ Inserted r e.written f'.written)

theorem passesOver (name : String) (hline : ∀ s : Session, s.hear line = (s, .refused r))
    (before after : List String) : PassesOver name before line after r where
  beside _ hf := by
    obtain ⟨e, he, hbeside⟩ := hf.exists_beside hline
    exact ⟨e, he, hbeside, hbeside.isOver⟩
  ahead _ he := by
    obtain ⟨f, hf, hahead⟩ := he.exists_ahead hline
    exact ⟨f, hf, hahead, hahead.exists_isOver name hline⟩

end Exchange

end SqlGate
