import SqlGate.Proofs.Pipeline.Bound
import SqlGate.Proofs.Session.Beside
import SqlGate.Proofs.Session.Serving
import SqlGate.Proofs.Text.Bytes

/-!
# Services that hear a line that is refused

A service that hears a line that says no request answers it and is what it was before
(`serve_insert`). The bytes of the line may come in pieces, with other things in between, and until
the line is complete they make no difference (`Run.of_append`). So whatever a service has done with
such a line in its input it does without it, but for the answer (`Run.passed_over`).
-/

namespace SqlGate

open Rpc Session

/-! ## Why a line is refused -/

namespace Rpc.Request

theorem code_of_ofJson {v : Json} {why : Fault} (h : ofJson v = .error why) :
    why.code = -32600 := by
  rw [ofJson] at h
  cases hr : Document.struct "JsonRpcRequest" fields initial (.ofJson v) with
  | error e =>
      rw [hr] at h
      cases h
      rfl
  | ok r =>
      rw [hr, ok_mapError, ok_bind] at h
      split at h
      · cases h
      · cases h
        rfl

end Rpc.Request

/-- What is no text of a value has a code of its own, and is answered to nobody in particular. -/
theorem Session.code_of_refused {line : String} {id : Json} {why : Fault}
    (h : said? line = some (.error (id, why))) :
    (∀ f, Json.ofString (content line) = .error f → id = .null ∧ why.code = -32700) ∧
    ∀ v, Json.ofString (content line) = .ok v →
      id = (v.get? "id").getD .null ∧ why.code = -32600 := by
  unfold said? at h
  split at h
  · cases h
  · have htext : Request.ofText (content line) = .error (id, why) := Option.some.inj h
    rw [Request.ofText] at htext
    split at htext
    · rename_i f hf
      cases htext
      exact ⟨fun _ _ => ⟨rfl, rfl⟩, fun v hv => by simp [hf] at hv⟩
    · rename_i v hv
      refine ⟨fun f hf => by simp [hv] at hf, fun w hw => ?_⟩
      obtain rfl : v = w := by simpa [hv] using hw
      cases hr : Request.ofJson v with
      | ok r => simp [hr, ok_mapError] at htext
      | error e =>
          rw [hr] at htext
          cases htext
          exact ⟨rfl, Request.code_of_ofJson hr⟩

/-! ## Services -/

namespace Service

variable {line : String} {r : Response} {s s₀ : Service} {input : List UInt8}
  {responses : List Response}

theorem hear_refused (hline : ∀ s : Session, s.hear line = (s, .refused r)) (s : Service) :
    s.hear line = (s, .refused r) := by
  unfold hear
  rw [hline]
  rfl

theorem hearAll_cons {l : List UInt8} (hl : Text.Utf8.decode l = .ok line) (s : Service)
    (ls : List (List UInt8)) : s.hearAll (l :: ls) =
      (((s.hear line).1.hearAll ls).1, (s.hear line).2 :: ((s.hear line).1.hearAll ls).2) := by
  rw [hearAll, hl]

theorem hearAll_append {ls : List (List UInt8)} (h : (s.hearAll ls).1.fault = none)
    (ls' : List (List UInt8)) : s.hearAll (ls ++ ls') =
      (((s.hearAll ls).1.hearAll ls').1,
        (s.hearAll ls).2 ++ ((s.hearAll ls).1.hearAll ls').2) := by
  induction ls generalizing s with
  | nil => rfl
  | cons l ls ih =>
      obtain ⟨line, hl⟩ := (fault_hearAll_iff.1 h).2 l List.mem_cons_self
      rw [hearAll_cons hl] at h ⊢
      rw [List.cons_append, hearAll_cons hl, ih h]
      rfl

theorem handleAll_cons (h : Heard) (hs : List Heard) (s : Service) : s.handleAll (h :: hs) =
    (((s.handle h).1.handleAll hs).1, (s.handle h).2 ++ ((s.handle h).1.handleAll hs).2) := rfl

theorem handleAll_append (hs hs' : List Heard) (s : Service) : s.handleAll (hs ++ hs') =
    (((s.handleAll hs).1.handleAll hs').1,
      (s.handleAll hs).2 ++ ((s.handleAll hs).1.handleAll hs').2) := by
  induction hs generalizing s with
  | nil => rfl
  | cons h hs ih =>
      rw [List.cons_append, handleAll_cons, ih, handleAll_cons]
      simp only [List.append_assoc]

/-- A line that says no request is answered, and that is all that it changes. -/
theorem serve_insert (hline : ∀ s : Session, s.hear line = (s, .refused r)) {l : List UInt8}
    (hl : Text.Utf8.decode l = .ok line) {ls : List (List UInt8)}
    (hls : (s.hearAll ls).1.fault = none) (ls' : List (List UInt8)) :
    (s.serve (ls ++ l :: ls')).1 = (s.serve (ls ++ ls')).1 ∧
      Inserted r (s.serve (ls ++ ls')).2 (s.serve (ls ++ l :: ls')).2 := by
  have hheard : (s.hearAll ls).1.hearAll (l :: ls') =
      (((s.hearAll ls).1.hearAll ls').1, .refused r :: ((s.hearAll ls).1.hearAll ls').2) := by
    rw [hearAll_cons hl, hear_refused hline]
  simp only [serve, hearAll_append hls, hheard, handleAll_append, handleAll_cons, handle, true_and]
  exact Inserted.append ⟨_, _, rfl, rfl⟩ _

/-! ### What a service has read -/

/-- A service reads on as long as every line is a text. -/
theorem Run.fault_eq_none_iff (h : Run s₀ input s responses) (hfault : s₀.fault = none)
    (hstart : s₀.unread = []) :
    s.fault = none ↔ ∀ l ∈ (lines input).1, ∃ line, Text.Utf8.decode l = .ok line := by
  induction h with
  | start => exact iff_of_true hfault nofun
  | @feed input s responses h bytes ih =>
      rw [lines_append, List.forall_mem_append, ← ih]
      unfold Service.feed
      split
      · rename_i hsome
        have hnot : s.fault ≠ none := fun hnone => by simp [hnone] at hsome
        exact iff_of_false hnot fun hall => hnot hall.1
      · rename_i hnone
        have hnone : s.fault = none := by simpa using hnone
        rw [(serve_keeps _ _).2.2, fault_hearAll_iff, (h.matched hstart hnone).2.1]
  | @pass input s responses h millis ih =>
      rw [← ih]
      exact Iff.of_eq (congrArg (· = none) (keeps_gather _).fault)

/-! ### The beginning of a line -/

theorem lines_of_not_mem {bytes : List UInt8} (h : newline ∉ bytes) : lines bytes = ([], bytes) := by
  induction bytes with
  | nil => rfl
  | cons b bytes ih =>
      rw [List.mem_cons, not_or] at h
      rw [lines_cons, ih h.2, addByte, if_neg (Ne.symm h.1)]

/-- A beginning of a line makes no difference until the line is complete. -/
theorem hear_unread (s : Service) (line : String) (b : List UInt8) :
    ({ s with unread := b } : Service).hear line =
      ({ (s.hear line).1 with unread := b }, (s.hear line).2) := by
  unfold hear
  dsimp only
  cases (s.session.hear line).2 <;> rfl

theorem hearAll_unread (ls : List (List UInt8)) (s : Service) (b : List UInt8) :
    ({ s with unread := b } : Service).hearAll ls =
      ({ (s.hearAll ls).1 with unread := b }, (s.hearAll ls).2) := by
  induction ls generalizing s with
  | nil => rfl
  | cons l ls ih =>
      rw [hearAll, hearAll]
      split
      · rfl
      · rw [hear_unread]
        dsimp only
        rw [ih]

theorem handle_unread (h : Heard) (s : Service) (b : List UInt8) :
    ({ s with unread := b } : Service).handle h =
      ({ (s.handle h).1 with unread := b }, (s.handle h).2) := by
  cases h with
  | accepted n r =>
      rw [handle, handle]
      dsimp only
      cases r.task s.name <;> rfl
  | _ => rfl

theorem handleAll_unread (hs : List Heard) (s : Service) (b : List UInt8) :
    ({ s with unread := b } : Service).handleAll hs =
      ({ (s.handleAll hs).1 with unread := b }, (s.handleAll hs).2) := by
  induction hs generalizing s with
  | nil => rfl
  | cons h hs ih => rw [handleAll_cons, handle_unread, ih, handleAll_cons]

theorem collect_unread (calls : List (Nat × Nat)) (s : Service) (b : List UInt8) :
    ({ s with unread := b } : Service).collect calls =
      ({ (s.collect calls).1 with unread := b }, (s.collect calls).2) := by
  induction calls generalizing s with
  | nil => rfl
  | cons call calls ih =>
      obtain ⟨n, i⟩ := call
      rw [collect, collect]
      dsimp only
      split
      · rename_i a _
        have hlater := ih (s.conclude n (.ok a.content)).1
        simp only [conclude] at hlater ⊢
        rw [hlater]
      · exact ih s
      · rw [ih]

theorem gather_unread (s : Service) (b : List UInt8) :
    ({ s with unread := b } : Service).gather =
      ({ s.gather.1 with unread := b }, s.gather.2) :=
  collect_unread s.underWay { s with underWay := [] } b

theorem serve_unread (s : Service) (ls : List (List UInt8)) (b : List UInt8) :
    ({ s with unread := b } : Service).serve ls =
      ({ (s.serve ls).1 with unread := b }, (s.serve ls).2) := by
  simp only [serve, hearAll_unread, handleAll_unread, gather_unread]

/-- A service that reads on serves the lines that are complete. -/
theorem feed_of_fault (h : s.fault = none) (bytes : List UInt8) : s.feed bytes =
    ({ (s.serve (lines (s.unread ++ bytes)).1).1 with unread := (lines (s.unread ++ bytes)).2 },
      (s.serve (lines (s.unread ++ bytes)).1).2) := by
  have hopen : ¬ s.fault.isSome := by simp [h]
  rw [feed, if_neg hopen]
  exact serve_unread s _ _

theorem feed_append {a b : List UInt8} (hfault : s.fault = none)
    (hwhole : (lines (s.unread ++ a)).2 = []) (hb : newline ∉ b) :
    s.feed (a ++ b) = ({ (s.feed a).1 with unread := b }, (s.feed a).2) := by
  have hlines : lines (s.unread ++ (a ++ b)) = ((lines (s.unread ++ a)).1, b) := by
    rw [← List.append_assoc, lines_append, hwhole, List.nil_append, lines_of_not_mem hb,
      List.append_nil]
  rw [feed_of_fault hfault, feed_of_fault hfault, hlines]

theorem feed_unread (hfault : s.fault = none) (hunread : s.unread = []) (a b : List UInt8) :
    ({ s with unread := a } : Service).feed b = s.feed (a ++ b) := by
  have hopen : ({ s with unread := a } : Service).fault = none := hfault
  rw [feed_of_fault hopen, feed_of_fault hfault, hunread, serve_unread]
  rfl

/-- What a service does with the beginning of a line it does without it. -/
theorem Run.of_append {xs b : List UInt8} (h : Run s₀ (xs ++ b) s responses)
    (hstart : s₀.unread = []) (hwhole : (lines xs).2 = []) (hb : newline ∉ b)
    (hfault : s.fault = none) :
    ∃ s', Run s₀ xs s' responses ∧ s = { s' with unread := b } := by
  generalize hinput : xs ++ b = input at h
  induction h generalizing b with
  | start =>
      obtain ⟨rfl, rfl⟩ := List.append_eq_nil_iff.1 hinput
      exact ⟨s₀, .start, by rw [← hstart]⟩
  | @feed input s responses h bytes ih =>
      obtain ⟨hbefore, -⟩ := matched_feed hfault
      rcases List.append_eq_append_iff.1 hinput with ⟨c, rfl, rfl⟩ | ⟨a, rfl, rfl⟩
      · obtain ⟨s', hrun, rfl⟩ := ih (fun hc => hb (List.mem_append_left _ hc)) hbefore rfl
        have hopen : s'.fault = none := hbefore
        have hunread := (hrun.matched hstart hopen).2.1.trans hwhole
        have hnothing : (lines (s'.unread ++ [])).2 = [] := by rw [hunread]; rfl
        have hrun' := hrun.feed []
        rw [List.append_nil] at hrun'
        rw [feed_unread hopen hunread, ← List.nil_append (c ++ bytes), feed_append hopen hnothing hb]
        exact ⟨_, hrun', rfl⟩
      · obtain ⟨-, hunread, -⟩ := h.matched hstart hbefore
        rw [lines_append, ← hunread] at hwhole
        rw [feed_append hbefore hwhole hb]
        exact ⟨_, h.feed a, rfl⟩
  | @pass input s responses h millis ih =>
      have hkeeps := keeps_gather { s with gateway := s.gateway.pass millis }
      obtain ⟨s', hrun, rfl⟩ := ih hb (hkeeps.fault.symm.trans hfault) hinput
      have hpass : ({ s' with unread := b } : Service).pass millis =
          ({ (s'.pass millis).1 with unread := b }, (s'.pass millis).2) :=
        gather_unread { s' with gateway := s'.gateway.pass millis } b
      rw [hpass]
      exact ⟨_, hrun.pass millis, rfl⟩

/-! ### Without the line -/

/-- A line that says no request, behind whole lines, is answered, and that is all that it changes. -/
theorem feed_insert (hline : ∀ s : Session, s.hear line = (s, .refused r)) {a b ys : List UInt8}
    (hl : Text.Utf8.decode (b ++ [newline]) = .ok line) (hb : newline ∉ b)
    (hfault : (s.hearAll (lines (s.unread ++ a)).1).1.fault = none)
    (hwhole : (lines (s.unread ++ a)).2 = []) :
    (s.feed (a ++ (b ++ newline :: ys))).1 = (s.feed (a ++ ys)).1 ∧
      Inserted r (s.feed (a ++ ys)).2 (s.feed (a ++ (b ++ newline :: ys))).2 := by
  have hwith : lines (s.unread ++ (a ++ (b ++ newline :: ys))) =
      ((lines (s.unread ++ a)).1 ++ (b ++ [newline]) :: (lines ys).1, (lines ys).2) := by
    rw [← List.append_assoc, lines_append, hwhole, List.nil_append, lines_append_newline hb]
  have hwithout : lines (s.unread ++ (a ++ ys)) =
      ((lines (s.unread ++ a)).1 ++ (lines ys).1, (lines ys).2) := by
    rw [← List.append_assoc, lines_append, hwhole, List.nil_append]
  obtain ⟨hserve, hinserted⟩ := serve_insert hline hl hfault (lines ys).1
  have hopen := (fault_hearAll_iff.1 hfault).1
  rw [feed_of_fault hopen, feed_of_fault hopen, hwith, hwithout]
  exact ⟨by rw [hserve], hinserted⟩

/-- Bytes complete a line, or come in behind it. -/
theorem append_newline_eq_append {b c ys bytes : List UInt8}
    (h : b ++ newline :: ys = c ++ bytes) :
    (∃ zs, c = b ++ newline :: zs ∧ ys = zs ++ bytes) ∨
      ∃ d, b = c ++ d ∧ bytes = d ++ newline :: ys := by
  rcases List.append_eq_append_iff.1 h with ⟨d, rfl, hd⟩ | ⟨d, rfl, rfl⟩
  · cases d with
    | nil => exact .inr ⟨[], by simp, hd.symm⟩
    | cons x d =>
        obtain ⟨rfl, rfl⟩ := List.cons.inj hd
        exact .inl ⟨d, rfl, rfl⟩
  · exact .inr ⟨d, rfl, rfl⟩

section PassedOver

variable (hline : ∀ s : Session, s.hear line = (s, .refused r)) {xs ys : List UInt8}
  (hwhole : (lines xs).2 = []) (htext : ∀ l ∈ (lines xs).1, ∃ line, Text.Utf8.decode l = .ok line)
  (hfault : s₀.fault = none) (hstart : s₀.unread = [])
include hline hwhole htext hfault hstart

/-- A line comes in together with the last of the lines before it. -/
theorem Run.feed_behind {a b : List UInt8} (hl : Text.Utf8.decode (b ++ [newline]) = .ok line)
    (hb : newline ∉ b) (h : Run s₀ input s responses) (hxs : xs = input ++ a) :
    ∃ responses', Run s₀ (xs ++ ys) (s.feed (a ++ (b ++ newline :: ys))).1 responses' ∧
      Inserted r responses' (responses ++ (s.feed (a ++ (b ++ newline :: ys))).2) := by
  subst hxs
  rw [lines_append] at hwhole htext
  have hopen : s.fault = none :=
    (h.fault_eq_none_iff hfault hstart).2 fun l hl => htext l (List.mem_append_left _ hl)
  rw [← (h.matched hstart hopen).2.1] at hwhole htext
  have hheard : (s.hearAll (lines (s.unread ++ a)).1).1.fault = none :=
    fault_hearAll_iff.2 ⟨hopen, fun l hl => htext l (List.mem_append_right _ hl)⟩
  obtain ⟨hsame, hinserted⟩ : (s.feed (a ++ (b ++ newline :: ys))).1 = (s.feed (a ++ ys)).1 ∧ _ :=
    feed_insert hline hl hb hheard hwhole
  rw [hsame, List.append_assoc]
  exact ⟨_, h.feed (a ++ ys), hinserted.prepend _⟩

/-- A line is completed of which some has come in before. -/
theorem Run.feed_rest {c d : List UInt8} (hl : Text.Utf8.decode (c ++ d ++ [newline]) = .ok line)
    (hb : newline ∉ c ++ d) (h : Run s₀ (xs ++ c) s responses) :
    ∃ responses', Run s₀ (xs ++ ys) (s.feed (d ++ newline :: ys)).1 responses' ∧
      Inserted r responses' (responses ++ (s.feed (d ++ newline :: ys)).2) := by
  have hc : newline ∉ c := fun hc => hb (List.mem_append_left _ hc)
  have hopen : s.fault = none := by
    rw [h.fault_eq_none_iff hfault hstart, lines_append, hwhole, List.nil_append,
      lines_of_not_mem hc, List.append_nil]
    exact htext
  obtain ⟨s', hrun, rfl⟩ := h.of_append hstart hwhole hc hopen
  have hopen' : s'.fault = none := hopen
  have hunread := (hrun.matched hstart hopen').2.1.trans hwhole
  have hbehind : ∃ responses', Run s₀ (xs ++ ys) (s'.feed ([] ++ (c ++ d ++ newline :: ys))).1
      responses' ∧ _ :=
    hrun.feed_behind hline hwhole htext hfault hstart hl hb (List.append_nil xs).symm
  rwa [feed_unread hopen' hunread, ← List.append_assoc]

/-- What a service does with a line that says no request it does without it, but for the answer to
that line, in however many pieces the line comes in. -/
theorem Run.passed_over {b : List UInt8} (hl : Text.Utf8.decode (b ++ [newline]) = .ok line)
    (hb : newline ∉ b) (h : Run s₀ (xs ++ (b ++ newline :: ys)) s responses) :
    ∃ responses', Run s₀ (xs ++ ys) s responses' ∧ Inserted r responses' responses := by
  generalize hinput : xs ++ (b ++ newline :: ys) = input at h
  induction h generalizing ys with
  | start => simp at hinput
  | @feed input s responses h bytes ih =>
      rcases List.append_eq_append_iff.1 hinput with ⟨c, rfl, hc⟩ | ⟨a, hxs, rfl⟩
      · rcases append_newline_eq_append hc with ⟨ys, rfl, rfl⟩ | ⟨d, rfl, rfl⟩
        · obtain ⟨responses', hrun, hinserted⟩ := ih rfl
          have hrun' := hrun.feed bytes
          rw [List.append_assoc] at hrun'
          exact ⟨_, hrun', hinserted.append _⟩
        · exact h.feed_rest hline hwhole htext hfault hstart hl hb
      · exact h.feed_behind hline hwhole htext hfault hstart hl hb hxs
  | pass h millis ih =>
      obtain ⟨responses', hrun, hinserted⟩ := ih hinput
      exact ⟨_, hrun.pass millis, hinserted.append _⟩

end PassedOver

/-! ### The end of the input -/

/-- The end of the input finds a fault only in a line that is no text. -/
theorem finish_ne_failed_iff (s : Service) : (∀ why, s.finish.2.2 ≠ .failed why) ↔
    s.fault = none ∧
      ∀ l ∈ if s.unread.isEmpty then [] else [s.unread], ∃ line, Text.Utf8.decode l = .ok line := by
  unfold finish
  generalize hfirst : (if s.fault.isSome || s.unread.isEmpty then (s, [])
    else { s with unread := [] }.serve [s.unread]) = first
  obtain ⟨s₁, now⟩ := first
  trans s₁.fault = none
  · dsimp only
    cases s₁.fault with
    | some why => simp
    | none =>
        refine iff_of_true (fun why => ?_) rfl
        dsimp only
        split <;> exact nofun
  · split_ifs at hfirst with hskip
    · cases hfirst
      refine (and_iff_left_of_imp fun hopen => ?_).symm
      have hempty : s.unread.isEmpty = true := by simpa [hopen] using hskip
      rw [if_pos hempty]
      exact nofun
    · rw [Bool.or_eq_true, not_or] at hskip
      have hserve : (({ s with unread := [] } : Service).serve [s.unread]).1.fault = s₁.fault :=
        congrArg (·.1.fault) hfirst
      rw [if_neg hskip.2, ← hserve, (serve_keeps _ _).2.2, fault_hearAll_iff]

theorem Run.finish_ne_failed_iff (h : Run s₀ input s responses) (hfault : s₀.fault = none)
    (hstart : s₀.unread = []) : (∀ why, s.finish.2.2 ≠ .failed why) ↔
      ∀ l ∈ allLines input, ∃ line, Text.Utf8.decode l = .ok line := by
  rw [Service.finish_ne_failed_iff, allLines, List.forall_mem_append,
    ← h.fault_eq_none_iff hfault hstart]
  exact and_congr_right fun hopen => by rw [(h.matched hstart hopen).2.1]

/-! ### A session and its lines -/

/-- A service reads on as long as each line is a text, and if each is, the end of the input is the
only end. A line that says no request, behind lines that are texts, is answered to whom it names,
with a code that tells whether it is a value at all. Nothing else comes of it: the service is the one
that it would be without the line, in however many pieces and with whatever under way the line came,
and whatever can happen next with the line can happen without it, and the other way round. -/
theorem malformed_passed_over {name : String} {pipeline : Pipeline} {backend : Backend}
    (h : Run (.start name pipeline backend) input s responses) :
    (s.fault = none ↔ ∀ l ∈ (lines input).1, ∃ line, Text.Utf8.decode l = .ok line) ∧
    ((∀ why, s.finish.2.2 ≠ .failed why) ↔
      ∀ l ∈ allLines input, ∃ line, Text.Utf8.decode l = .ok line) ∧
    ∀ xs b ys line id why, input = xs ++ (b ++ newline :: ys) → (lines xs).2 = [] →
      (∀ l ∈ (lines xs).1, ∃ line, Text.Utf8.decode l = .ok line) →
      newline ∉ b → Text.Utf8.decode (b ++ [newline]) = .ok line →
      said? line = some (.error (id, why)) →
      (∀ f, Json.ofString (content line) = .error f → id = .null ∧ why.code = -32700) ∧
      (∀ v, Json.ofString (content line) = .ok v →
        id = (v.get? "id").getD .null ∧ why.code = -32600) ∧
      (∃ responses', Run (.start name pipeline backend) (xs ++ ys) s responses' ∧
        Inserted ⟨id, .error why⟩ responses' responses) ∧
      ∀ before after, (lines xs).1.map Text.Utf8.decode = before.map .ok →
        (allLines ys).map Text.Utf8.decode = after.map .ok →
        (allLines input).map Text.Utf8.decode = (before ++ line :: after).map .ok ∧
        (allLines (xs ++ ys)).map Text.Utf8.decode = (before ++ after).map .ok ∧
        Exchange.PassesOver name before line after ⟨id, .error why⟩ := by
  refine ⟨h.fault_eq_none_iff rfl rfl, h.finish_ne_failed_iff rfl rfl, ?_⟩
  rintro xs b ys line id why rfl hwhole htext hb hl hsaid
  have hline : ∀ s : Session, s.hear line = (s, .refused ⟨id, .error why⟩) :=
    fun _ => hear_of_refused hsaid
  obtain ⟨hunreadable, hother⟩ := code_of_refused hsaid
  refine ⟨hunreadable, hother, h.passed_over hline hwhole htext rfl rfl hl hb,
    fun before after hbefore hafter => ⟨?_, ?_, Exchange.passesOver name hline before after⟩⟩
  · have hwith : allLines (xs ++ (b ++ newline :: ys)) =
        (lines xs).1 ++ (b ++ [newline]) :: allLines ys := by
      rw [allLines, lines_append, hwhole, List.nil_append, lines_append_newline hb,
        List.append_assoc]
      rfl
    rw [hwith, List.map_append, List.map_cons, hbefore, hl, hafter, List.map_append, List.map_cons]
  · have hwithout : allLines (xs ++ ys) = (lines xs).1 ++ allLines ys := by
      rw [allLines, lines_append, hwhole, List.nil_append, List.append_assoc]
      rfl
    rw [hwithout, List.map_append, hbefore, hafter, List.map_append]

/-- Something that is no value. -/
def oops : List UInt8 := [0x6F, 0x6F, 0x70, 0x73]

/-- A client asks whether the server is there. -/
def ping : List UInt8 := Text.Utf8.encode (pingLine ++ "\n")

theorem lines_ping : lines ping = ([ping], []) := by decide +kernel

theorem decode_ping : Text.Utf8.decode ping = .ok (pingLine ++ "\n") :=
  eq_ok_iff_toOption.2 (Text.Utf8.decode?_encode _)

theorem decode_oops : Text.Utf8.decode (oops ++ [newline]) = .ok "oops\n" := by cbv

theorem said?_oops : said? "oops\n" =
    some (.error (.null, .unreadable (.syntaxAt .expectedValue ⟨1, 1⟩))) := by
  rw [said?_of_trim "oops" (by decide +kernel) (by decide +kernel)]
  cbv

/-- What is no value is refused with its code, and the question behind it is answered as it would be
without it. -/
theorem malformed_passed_over_oops :
    let s₀ := Service.start "sqlward" Pipeline.alone Backend.silent
    let s := (s₀.feed (oops ++ newline :: ping)).1
    s.fault = none ∧ ∃ why responses', why.code = -32700 ∧ Run s₀ ping s responses' ∧
      Inserted ⟨.null, .error why⟩ responses' (s₀.feed (oops ++ newline :: ping)).2 := by
  intro s₀ s
  have hrun : Run s₀ (oops ++ newline :: ping) s (s₀.feed (oops ++ newline :: ping)).2 :=
    Run.start.feed _
  obtain ⟨hopen, -, hpassed⟩ := malformed_passed_over hrun
  have hnot : newline ∉ oops := by decide
  refine ⟨hopen.2 ?_, ?_⟩
  · rw [lines_append_newline hnot, lines_ping]
    simp only [List.forall_mem_cons, decode_oops, decode_ping]
    exact ⟨⟨_, rfl⟩, ⟨_, rfl⟩, nofun⟩
  · obtain ⟨hunreadable, hother, ⟨responses', hwithout, hinserted⟩, -⟩ :=
      hpassed [] oops ping _ _ _ rfl rfl nofun hnot decode_oops said?_oops
    refine ⟨_, responses', ?_, hwithout, hinserted⟩
    cases hvalue : Json.ofString (content "oops\n") with
    | error f => exact (hunreadable f hvalue).2
    | ok v => exact absurd (hother v hvalue).2 (by decide)

/-- A line that is no text ends the service, and the question behind it, which is answered if nothing
stands before it, is not heard. -/
theorem undecodable_line_ends_session :
    let s₀ := Service.start "sqlward" Pipeline.alone Backend.silent
    let s := (s₀.feed ([0xFF] ++ newline :: ping)).1
    (s₀.feed ([0xFF] ++ newline :: ping)).2 = [] ∧ s.finish.2 = ([], .failed ⟨0, some 1⟩) ∧
      ∃ v, (s₀.feed ping).2 = [⟨.num (.int 1), .ok v⟩] := by
  intro s₀ s
  have hnot : newline ∉ [(0xFF : UInt8)] := by decide
  have hdecode : Text.Utf8.decode ([0xFF] ++ [newline]) = .error ⟨0, some 1⟩ := by cbv
  have hlines : lines (s₀.unread ++ ([0xFF] ++ newline :: ping)) =
      ([[0xFF] ++ [newline], ping], []) := by
    change lines ([0xFF] ++ newline :: ping) = _
    rw [lines_append_newline hnot, lines_ping]
  have hnow : s₀.feed ([0xFF] ++ newline :: ping) =
      ({ s₀ with fault := some ⟨0, some 1⟩ }, []) := by
    rw [feed_of_fault rfl, hlines, serve, hearAll, hdecode]
    rfl
  have halone : lines (s₀.unread ++ ping) = ([ping], []) := lines_ping
  refine ⟨congrArg Prod.snd hnow, ?_, ?_⟩
  · change (s₀.feed ([0xFF] ++ newline :: ping)).1.finish.2 = _
    rw [hnow]
    rfl
  · have hheard : s₀.hear (pingLine ++ "\n") =
        (note { s₀ with session := s₀.session.accept (.num (.int 1)) } (.accepted 0 ⟨"2.0",
          some (.num (.int 1)), "ping", none⟩), .accepted 0 ⟨"2.0", some (.num (.int 1)), "ping",
          none⟩) := by
      rw [hear, hear_of_requests (requests_ping (by decide +kernel))]
      rfl
    rw [feed_of_fault rfl, halone, serve, hearAll_cons decode_ping, hheard]
    exact ⟨_, rfl⟩

end Service

end SqlGate
