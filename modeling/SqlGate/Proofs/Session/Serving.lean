import SqlGate.Proofs.Session.Answers

/-!
# What a service does is an exchange

A service hears the lines that are there, handles the requests on them in their order, and later
concludes those whose calls have ended. That is one of the ways in which an exchange can go: what the
service responds is what was written, in another order at most. A service that ends when its input
does, with every request concluded, has come to the end of an exchange (`exists_exchange`).
-/

namespace SqlGate

open Rpc Session

namespace Service

variable {s : Service} {e : Exchange} {rest : List String} {given : Multiset Response}

/-! ## What stays -/

/-- Nothing is read from one service to the other. -/
structure Keeps (s s' : Service) : Prop where
  name : s'.name = s.name
  unread : s'.unread = s.unread
  fault : s'.fault = s.fault

theorem Keeps.trans {s₁ s₂ s₃ : Service} (h₁ : Keeps s₁ s₂) (h₂ : Keeps s₂ s₃) : Keeps s₁ s₃ :=
  ⟨h₂.name.trans h₁.name, h₂.unread.trans h₁.unread, h₂.fault.trans h₁.fault⟩

theorem keeps_hear (s : Service) (line : String) : Keeps s (s.hear line).1 := by
  unfold hear
  dsimp only
  cases (s.session.hear line).2 <;> exact ⟨rfl, rfl, rfl⟩

theorem keeps_handle (s : Service) (h : Heard) : Keeps s (s.handle h).1 := by
  cases h with
  | accepted n r =>
      rw [handle]
      split <;> exact ⟨rfl, rfl, rfl⟩
  | _ => exact ⟨rfl, rfl, rfl⟩

theorem keeps_handleAll (hs : List Heard) (s : Service) : Keeps s (s.handleAll hs).1 := by
  induction hs generalizing s with
  | nil => exact ⟨rfl, rfl, rfl⟩
  | cons h hs ih => exact (keeps_handle s h).trans (ih _)

theorem keeps_collect (calls : List (Nat × Nat)) (s : Service) : Keeps s (s.collect calls).1 := by
  induction calls generalizing s with
  | nil => exact ⟨rfl, rfl, rfl⟩
  | cons p calls ih =>
      obtain ⟨n, i⟩ := p
      rw [collect]
      split
      · rename_i a _
        have hconclude : Keeps s (s.conclude n (.ok a.content)).1 := ⟨rfl, rfl, rfl⟩
        exact hconclude.trans (ih _)
      · exact ih _
      · obtain ⟨hname, hunread, hfault⟩ := ih s
        exact ⟨hname, hunread, hfault⟩

theorem keeps_gather (s : Service) : Keeps s s.gather.1 := by
  obtain ⟨hname, hunread, hfault⟩ := keeps_collect s.underWay { s with underWay := [] }
  exact ⟨hname, hunread, hfault⟩

theorem hear_underWay (s : Service) (line : String) : (s.hear line).1.underWay = s.underWay := by
  unfold hear
  dsimp only
  cases (s.session.hear line).2 <;> rfl

theorem hear_session (s : Service) (line : String) :
    (s.hear line).1.session = (s.session.hear line).1 := by
  unfold hear
  dsimp only
  cases (s.session.hear line).2 <;> rfl

/-- Lines that are heard change neither what is under way nor what is yet to be read. -/
theorem hearAll_keeps (ls : List (List UInt8)) (s : Service) :
    (s.hearAll ls).1.underWay = s.underWay ∧ (s.hearAll ls).1.name = s.name ∧
      (s.hearAll ls).1.unread = s.unread := by
  induction ls generalizing s with
  | nil => exact ⟨rfl, rfl, rfl⟩
  | cons l ls ih =>
      rw [hearAll]
      split
      · exact ⟨rfl, rfl, rfl⟩
      · rename_i line _
        obtain ⟨hcalls, hname, hunread⟩ := ih (s.hear line).1
        have hkeeps := keeps_hear s line
        exact ⟨hcalls.trans (hear_underWay s line), hname.trans hkeeps.name,
          hunread.trans hkeeps.unread⟩

/-- Lines are heard to the last if each is a text. -/
theorem fault_hearAll_iff {ls : List (List UInt8)} {s : Service} :
    (s.hearAll ls).1.fault = none ↔
      s.fault = none ∧ ∀ l ∈ ls, ∃ line, Text.Utf8.decode l = .ok line := by
  induction ls generalizing s with
  | nil => exact ⟨fun h => ⟨h, nofun⟩, And.left⟩
  | cons l ls ih =>
      rw [hearAll, List.forall_mem_cons]
      split
      · rename_i why hl
        exact iff_of_false nofun fun h => by simp [hl] at h
      · rename_i line hl
        rw [ih, (keeps_hear s line).fault, hl]
        exact and_congr_right fun _ => (and_iff_right ⟨line, rfl⟩).symm

/-! ## Hearing and handling -/

/-- Requests whose calls are under way, by their numbers. -/
structure Calls (s : Service) (waiting : List (Nat × Request)) : Prop where
  numbers : waiting.map Prod.fst = s.underWay.map Prod.fst
  call : ∀ p ∈ waiting, ∃ c, p.2.task s.name = .call c

/-- The refusals among what was heard. -/
def refusals (hs : List Heard) : List Response := hs.flatMap fun h => (Exchange.refusal? h).toList

/-- If no line is no text, each is heard. -/
theorem steps_hearAll (name : String) {ls : List (List UInt8)} {s : Service}
    (hfault : (s.hearAll ls).1.fault = none) : ∃ texts : List String,
      ls.map Text.Utf8.decode = texts.map .ok ∧
      ∀ (rest : List String) (e : Exchange) (waiting : List (Nat × Request))
        (given : Multiset Response), e.Rests (texts ++ rest) s.session waiting given →
        ∃ e', Relation.ReflTransGen (Exchange.Step name) e e' ∧
          e'.Rests rest (s.hearAll ls).1.session
            (waiting ++ (s.hearAll ls).2.flatMap Exchange.toHandle)
            (given + refusals (s.hearAll ls).2) := by
  induction ls generalizing s with
  | nil =>
      refine ⟨[], rfl, fun rest e waiting given h => ⟨e, .refl, ?_⟩⟩
      simpa [hearAll, refusals] using h
  | cons l ls ih =>
      rw [hearAll] at hfault ⊢
      cases hdecode : Text.Utf8.decode l with
      | error why =>
          rw [hdecode] at hfault
          cases hfault
      | ok line =>
          rw [hdecode] at hfault
          obtain ⟨texts, htexts, hsteps⟩ := ih hfault
          refine ⟨line :: texts, ?_, fun rest e waiting given h => ?_⟩
          · rw [List.map_cons, List.map_cons, htexts, hdecode]
          · obtain ⟨e₁, hfirst, h₁⟩ := h.hear name
            rw [← hear_session] at h₁
            obtain ⟨e₂, hlater, h₂⟩ := hsteps rest e₁ _ _ h₁
            refine ⟨e₂, hfirst.trans hlater, ?_⟩
            simp only [refusals, List.flatMap_cons, ← Multiset.coe_add, ← List.append_assoc,
              ← add_assoc]
            exact h₂

/-- What was heard is handled. A refusal has been written before. -/
theorem steps_handle (h : Heard) {later : List (Nat × Request)} {owed : Multiset Response}
    {waiting : List (Nat × Request)} (hcalls : s.Calls waiting)
    (he : e.Rests rest s.session (waiting ++ (Exchange.toHandle h ++ later))
      (given + ((Exchange.refusal? h).toList + owed))) :
    ∃ e' waiting', Relation.ReflTransGen (Exchange.Step s.name) e e' ∧
      e'.Rests rest (s.handle h).1.session (waiting' ++ later) (given + ((s.handle h).2 + owed)) ∧
      (s.handle h).1.Calls waiting' := by
  cases h with
  | accepted n r =>
      rw [handle]
      cases htask : r.task s.name with
      | respond outcome =>
          have ho : MayEnd s.name r outcome := by
            rw [MayEnd, htask]
          obtain ⟨e', hsteps, he'⟩ := he.conclude ho
          refine ⟨e', waiting, hsteps, ?_, hcalls.numbers, hcalls.call⟩
          have hnone : Exchange.refusal? (.accepted n r) = none := rfl
          rwa [add_assoc, hnone, Option.toList_none, Multiset.coe_nil, zero_add,
            add_comm owed] at he'
      | call c =>
          refine ⟨e, waiting ++ [(n, r)], .refl, ?_, ?_, fun p hp => ?_⟩
          · rwa [List.append_assoc]
          · simp only [List.map_append, hcalls.numbers, List.map_cons, List.map_nil]
          · rcases List.mem_append.1 hp with hp | hp
            · exact hcalls.call p hp
            · exact ⟨c, List.mem_singleton.1 hp ▸ htask⟩
  | _ => exact ⟨e, waiting, .refl, he, hcalls.numbers, hcalls.call⟩

theorem steps_handleAll (hs : List Heard) {waiting : List (Nat × Request)}
    (hcalls : s.Calls waiting)
    (he : e.Rests rest s.session (waiting ++ hs.flatMap Exchange.toHandle)
      (given + refusals hs)) :
    ∃ e' waiting', Relation.ReflTransGen (Exchange.Step s.name) e e' ∧
      e'.Rests rest (s.handleAll hs).1.session waiting' (given + (s.handleAll hs).2) ∧
      (s.handleAll hs).1.Calls waiting' := by
  induction hs generalizing s e waiting given with
  | nil =>
      refine ⟨e, waiting, .refl, ?_, hcalls⟩
      rwa [List.flatMap_nil, List.append_nil] at he
  | cons h hs ih =>
      simp only [refusals, List.flatMap_cons, ← Multiset.coe_add] at he
      obtain ⟨e₁, waiting₁, hnow, he₁, hcalls₁⟩ := steps_handle h hcalls he
      rw [← add_assoc] at he₁
      obtain ⟨e₂, waiting₂, hlater, he₂, hcalls₂⟩ := ih hcalls₁ he₁
      rw [(keeps_handle s h).name] at hlater
      refine ⟨e₂, waiting₂, hnow.trans hlater, ?_, hcalls₂⟩
      rw [add_assoc, Multiset.coe_add] at he₂
      exact he₂

/-! ## Calls that have ended -/

/-- The requests whose calls have ended conclude. Those that wait already go on to wait. -/
theorem steps_collect (calls : List (Nat × Nat)) {before waiting : List (Nat × Request)}
    (hnone : s.underWay = []) (hnumbers : waiting.map Prod.fst = calls.map Prod.fst)
    (hcall : ∀ p ∈ waiting, ∃ c, p.2.task s.name = .call c)
    (he : e.Rests rest s.session (before ++ waiting) given) :
    ∃ e' waiting', Relation.ReflTransGen (Exchange.Step s.name) e e' ∧
      e'.Rests rest (s.collect calls).1.session (before ++ waiting')
        (given + (s.collect calls).2) ∧
      (s.collect calls).1.Calls waiting' := by
  induction calls generalizing s e before waiting given with
  | nil =>
      refine ⟨e, [], .refl, ?_, ?_, fun p hp => nomatch hp⟩
      · rw [collect]
        simpa using he.mono (List.sublist_append_left before waiting)
      · rw [collect, hnone]
        rfl
  | cons call calls ih =>
      obtain ⟨n, i⟩ := call
      cases waiting with
      | nil => cases hnumbers
      | cons p waiting =>
          obtain ⟨m, r⟩ := p
          obtain ⟨hm, htail⟩ := List.cons_eq_cons.1 hnumbers
          obtain ⟨c, hc⟩ := hcall _ List.mem_cons_self
          have hlater : ∀ p ∈ waiting, ∃ c, p.2.task s.name = .call c := fun p hp =>
            hcall p (List.mem_cons_of_mem _ hp)
          dsimp only at hm
          subst hm
          rw [collect]
          split
          · rename_i a _
            have ho : MayEnd s.name r (.ok a.content) := by
              rw [MayEnd, hc]
              exact ⟨a, rfl⟩
            obtain ⟨e₁, hnow, he₁⟩ := he.conclude ho
            obtain ⟨e₂, waiting₂, hthen, he₂, hcalls₂⟩ :=
              ih (s := (s.conclude m (.ok a.content)).1) hnone htail hlater he₁
            refine ⟨e₂, waiting₂, hnow.trans hthen, ?_, hcalls₂⟩
            rw [add_assoc, Multiset.coe_add] at he₂
            exact he₂
          · exact ih hnone htail hlater
              (he.mono ((List.sublist_cons_self _ _).append_left before))
          · rw [List.append_cons] at he
            obtain ⟨e₁, waiting₁, hthen, he₁, hcalls₁⟩ := ih hnone htail hlater he
            refine ⟨e₁, (m, r) :: waiting₁, hthen, ?_, ?_, ?_⟩
            · rwa [List.append_cons]
            · exact congrArg (m :: ·) hcalls₁.numbers
            · intro p hp
              rcases List.mem_cons.1 hp with rfl | hp
              · exact ⟨c, by rw [← hc, (keeps_collect calls s).name]⟩
              · exact hcalls₁.call p hp

/-! ## What comes from outside -/

/-- An exchange can do with some lines what a service does that responds so. -/
def Matched (name : String) (texts : List String) (s s' : Service)
    (responses : List Response) : Prop :=
  ∀ (rest : List String) (e : Exchange) (waiting : List (Nat × Request))
    (given : Multiset Response), s.Calls waiting → e.Rests (texts ++ rest) s.session waiting given →
    ∃ e' waiting', Relation.ReflTransGen (Exchange.Step name) e e' ∧
      e'.Rests rest s'.session waiting' (given + responses) ∧ s'.Calls waiting'

theorem Matched.refl (name : String) (s : Service) : Matched name [] s s [] :=
  fun rest e waiting given hcalls he => ⟨e, waiting, .refl, by simpa using he, hcalls⟩

theorem Matched.trans {name : String} {t₁ t₂ : List String} {s₁ s₂ s₃ : Service}
    {r₁ r₂ : List Response} (h₁ : Matched name t₁ s₁ s₂ r₁) (h₂ : Matched name t₂ s₂ s₃ r₂) :
    Matched name (t₁ ++ t₂) s₁ s₃ (r₁ ++ r₂) := by
  intro rest e waiting given hcalls he
  rw [List.append_assoc] at he
  obtain ⟨e₁, waiting₁, hfirst, he₁, hcalls₁⟩ := h₁ _ e waiting given hcalls he
  obtain ⟨e₂, waiting₂, hthen, he₂, hcalls₂⟩ := h₂ rest e₁ waiting₁ _ hcalls₁ he₁
  refine ⟨e₂, waiting₂, hfirst.trans hthen, ?_, hcalls₂⟩
  rwa [add_assoc, Multiset.coe_add] at he₂

/-- Only the session counts, the name of the server and what is under way. -/
theorem Matched.congr {name : String} {texts : List String} {s₁ s₂ s' : Service}
    {responses : List Response} (h : Matched name texts s₁ s' responses)
    (hsession : s₂.session = s₁.session) (hname : s₂.name = s₁.name)
    (hunderWay : s₂.underWay = s₁.underWay) : Matched name texts s₂ s' responses := by
  intro rest e waiting given hcalls he
  rw [hsession] at he
  exact h rest e waiting given
    ⟨hunderWay ▸ hcalls.numbers, hname ▸ hcalls.call⟩ he

theorem matched_gather (s : Service) : Matched s.name [] s s.gather.1 s.gather.2 :=
  fun _ _ waiting _ hcalls he =>
    steps_collect (s := { s with underWay := [] }) s.underWay rfl hcalls.numbers hcalls.call
      (List.nil_append waiting ▸ he)

theorem serve_keeps (s : Service) (ls : List (List UInt8)) :
    (s.serve ls).1.name = s.name ∧ (s.serve ls).1.unread = s.unread ∧
      (s.serve ls).1.fault = (s.hearAll ls).1.fault := by
  obtain ⟨-, hname, hunread⟩ := hearAll_keeps ls s
  have hkeeps := (keeps_handleAll (s.hearAll ls).2 (s.hearAll ls).1).trans (keeps_gather _)
  exact ⟨hkeeps.name.trans hname, hkeeps.unread.trans hunread, hkeeps.fault⟩

theorem matched_serve {ls : List (List UInt8)} (hfault : (s.serve ls).1.fault = none) :
    ∃ texts : List String, ls.map Text.Utf8.decode = texts.map .ok ∧
      Matched s.name texts s (s.serve ls).1 (s.serve ls).2 := by
  obtain ⟨hunderWay, hname, -⟩ := hearAll_keeps ls s
  rw [(serve_keeps s ls).2.2] at hfault
  obtain ⟨texts, htexts, hhear⟩ := steps_hearAll s.name hfault
  refine ⟨texts, htexts, fun rest e waiting given hcalls he => ?_⟩
  obtain ⟨e₁, hheard, he₁⟩ := hhear rest e waiting given he
  have hcalls₁ : (s.hearAll ls).1.Calls waiting :=
    ⟨hcalls.numbers.trans (congrArg _ hunderWay.symm), hname ▸ hcalls.call⟩
  obtain ⟨e₂, waiting₂, hhandled, he₂, hcalls₂⟩ := steps_handleAll _ hcalls₁ he₁
  obtain ⟨e₃, waiting₃, hgathered, he₃, hcalls₃⟩ := matched_gather _ rest e₂ waiting₂ _ hcalls₂ he₂
  rw [hname] at hhandled
  rw [(keeps_handleAll _ _).name, hname] at hgathered
  refine ⟨e₃, waiting₃, (hheard.trans hhandled).trans hgathered, ?_, hcalls₃⟩
  rw [add_assoc, Multiset.coe_add] at he₃
  exact he₃

theorem matched_pass (s : Service) (millis : Nat) :
    Matched s.name [] s (s.pass millis).1 (s.pass millis).2 :=
  (matched_gather { s with gateway := s.gateway.pass millis }).congr rfl rfl rfl

/-- Lines that come in pieces are the same lines. -/
theorem lines_append (xs ys : List UInt8) : lines (xs ++ ys) =
    ((lines xs).1 ++ (lines ((lines xs).2 ++ ys)).1, (lines ((lines xs).2 ++ ys)).2) := by
  induction xs with
  | nil => rfl
  | cons b xs ih =>
      rw [List.cons_append, lines_cons, ih, lines_cons]
      obtain ⟨complete, unread⟩ := lines xs
      by_cases hb : b = newline
      · simp [addByte, hb]
      · cases complete with
        | nil => simp [addByte, hb, lines_cons]
        | cons l ls => simp [addByte, hb]

/-- All lines of an input. What stands after the last line is a line too. -/
def allLines (input : List UInt8) : List (List UInt8) :=
  (lines input).1 ++ if (lines input).2.isEmpty then [] else [(lines input).2]

/-- What a service has read since it began, and what it has responded. -/
inductive Run (s₀ : Service) : List UInt8 → Service → List Response → Prop where
  | start : Run s₀ [] s₀ []
  | feed {input : List UInt8} {s : Service} {responses : List Response}
    (h : Run s₀ input s responses) (bytes : List UInt8) :
    Run s₀ (input ++ bytes) (s.feed bytes).1 (responses ++ (s.feed bytes).2)
  | pass {input : List UInt8} {s : Service} {responses : List Response}
    (h : Run s₀ input s responses) (millis : Nat) :
    Run s₀ input (s.pass millis).1 (responses ++ (s.pass millis).2)

theorem matched_feed {bytes : List UInt8} (hfault : (s.feed bytes).1.fault = none) :
    s.fault = none ∧ (s.feed bytes).1.name = s.name ∧
      (s.feed bytes).1.unread = (lines (s.unread ++ bytes)).2 ∧
      ∃ texts : List String, (lines (s.unread ++ bytes)).1.map Text.Utf8.decode = texts.map .ok ∧
        Matched s.name texts s (s.feed bytes).1 (s.feed bytes).2 := by
  unfold feed at hfault ⊢
  split at hfault
  · rename_i hsome
    rw [hfault] at hsome
    cases hsome
  · rename_i hnone
    rw [if_neg hnone]
    obtain ⟨hname, hunread, -⟩ := serve_keeps
      { s with unread := (lines (s.unread ++ bytes)).2 } (lines (s.unread ++ bytes)).1
    obtain ⟨texts, htexts, hmatched⟩ := matched_serve hfault
    exact ⟨by simpa using hnone, hname, hunread, texts, htexts, hmatched.congr rfl rfl rfl⟩

/-- What a service has done with what it has read, an exchange can do with the lines of that. -/
theorem Run.matched {s₀ : Service} {input : List UInt8} {responses : List Response}
    (h : Run s₀ input s responses) (hstart : s₀.unread = []) (hfault : s.fault = none) :
    s.name = s₀.name ∧ s.unread = (lines input).2 ∧
      ∃ texts : List String, (lines input).1.map Text.Utf8.decode = texts.map .ok ∧
        Matched s₀.name texts s₀ s responses := by
  induction h with
  | start => exact ⟨rfl, hstart, [], rfl, .refl _ _⟩
  | @feed input s responses h bytes ih =>
      obtain ⟨hbefore, hname₂, hunread₂, texts₂, htexts₂, hmatched₂⟩ := matched_feed hfault
      obtain ⟨hname₁, hunread₁, texts₁, htexts₁, hmatched₁⟩ := ih hbefore
      rw [hunread₁] at hunread₂ htexts₂
      rw [hname₁] at hmatched₂
      refine ⟨hname₂.trans hname₁, ?_, texts₁ ++ texts₂, ?_, hmatched₁.trans hmatched₂⟩
      · exact hunread₂.trans (congrArg Prod.snd (lines_append input bytes)).symm
      · rw [lines_append, List.map_append, List.map_append, htexts₁, htexts₂]
  | @pass input s responses h millis ih =>
      have hkeeps := keeps_gather { s with gateway := s.gateway.pass millis }
      obtain ⟨hname, hunread, texts, htexts, hmatched⟩ := ih (hkeeps.fault.symm.trans hfault)
      refine ⟨hkeeps.name.trans hname, hkeeps.unread.trans hunread, texts, htexts, ?_⟩
      rw [← List.append_nil texts]
      exact hmatched.trans (hname ▸ matched_pass s millis)

/-- A service whose input ends hears what stands after the last line. -/
theorem matched_finish {s' : Service} {responses : List Response}
    (h : s.finish = (s', responses, .closed)) : s.fault = none ∧
      ∃ texts : List String,
        (if s.unread.isEmpty then [] else [s.unread]).map Text.Utf8.decode = texts.map .ok ∧
        Matched s.name texts s s' responses := by
  unfold finish at h
  generalize hfirst : (if s.fault.isSome || s.unread.isEmpty then (s, [])
    else { s with unread := [] }.serve [s.unread]) = first at h
  obtain ⟨s₁, now⟩ := first
  dsimp only at h
  split at h
  · simp at h
  · rename_i hnone
    obtain ⟨rfl, rfl, -⟩ := by simpa only [Prod.mk.injEq] using h
    have hthen : Matched s₁.name [] s₁ _ _ :=
      (matched_gather { s₁ with gateway := s₁.gateway.finish }).congr rfl rfl rfl
    split_ifs at hfirst with hskip
    · cases hfirst
      rw [hnone, Option.isSome_none, Bool.false_or] at hskip
      exact ⟨hnone, [], by rw [if_pos hskip]; rfl, hthen⟩
    · rw [Bool.or_eq_true, not_or] at hskip
      have hnow : ({ s with unread := [] } : Service).serve [s.unread] = (s₁, now) := hfirst
      have hfault : (({ s with unread := [] } : Service).serve [s.unread]).1.fault = none := by
        rw [hnow, hnone]
      have hname : s₁.name = s.name :=
        congrArg (fun p => p.1.name) hnow ▸ (serve_keeps { s with unread := [] } [s.unread]).1
      obtain ⟨texts, htexts, hserve⟩ := matched_serve hfault
      rw [hnow] at hserve
      have hmatched : Matched s.name texts s s₁ now := hserve.congr rfl rfl rfl
      refine ⟨by simpa using hskip.1, texts, by rwa [if_neg hskip.2], ?_⟩
      rw [← hname] at hmatched ⊢
      exact List.append_nil texts ▸ hmatched.trans hthen

/-- A service that ends with its input, when every request has concluded, has come to the end of an
exchange. What was written there is what the service responds. -/
theorem exists_exchange {name : String} {pipeline : Pipeline} {backend : Backend}
    {input : List UInt8} {s' : Service} {responses later : List Response}
    (h : Run (.start name pipeline backend) input s responses)
    (hend : s.finish = (s', later, .closed))
    (hconcluded : ∀ t ∈ s'.session.tickets, t.isConcluded = true) :
    ∃ (texts : List String) (e : Exchange),
      (allLines input).map Text.Utf8.decode = texts.map .ok ∧
      Exchange.Reachable name texts e ∧ e.IsOver ∧ e.written.Perm (responses ++ later) := by
  obtain ⟨hfault, last, hlast, hfinish⟩ := matched_finish hend
  obtain ⟨hname, hunread, texts, htexts, hrun⟩ := h.matched rfl hfault
  rw [hname] at hfinish
  have hcalls : (start name pipeline backend).Calls [] := ⟨rfl, fun _ hp => nomatch hp⟩
  obtain ⟨e, waiting, hsteps, he, -⟩ := hrun.trans hfinish [] _ [] 0 hcalls
    (Exchange.rests_start _)
  rw [List.append_nil] at hsteps
  refine ⟨texts ++ last, e, ?_, hsteps, ?_, ?_⟩
  · rw [allLines, List.map_append, List.map_append, htexts, ← hunread, hlast]
  · have hreachable : Exchange.Reachable name (texts ++ last) e := hsteps
    have hrunning := hreachable.sound.running_eq_nil (he.session ▸ hconcluded)
    exact ⟨he.unread, hrunning, he.ended, he.held, he.ready, he.channel⟩
  · have hwritten := he.written
    rw [zero_add] at hwritten
    exact Multiset.coe_eq_coe.1 hwritten

end Service

end SqlGate
