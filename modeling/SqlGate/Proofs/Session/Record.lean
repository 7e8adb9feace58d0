import Mathlib.Data.List.Nodup
import Mathlib.Data.List.Range
import SqlGate.Proofs.Session.Hearing
import SqlGate.Rpc.Method
import SqlGate.Pipeline

/-!
# What is owed to a line

A session is told of lines and of requests that conclude, in any order. The record of that says what
each line is owed (`Answered`): one refusal if it says no request, one response if it is a request
that nobody withdraws before it concludes, and else nothing. The responses that the session gives
are those that are owed, each once (`Recorded.perm`), and a line that withdraws a request names its
identifier (`Faithful.withdrawals`).
-/

namespace SqlGate.Session

open Rpc

/-- Something a session is told, with what it says to that. -/
inductive Event where
  | heard (line : String) (heard : Heard)
  | concluded (number : Nat) (outcome : Except Fault Json) (response : Option Response)

namespace Event

/-- The response that is given at once. -/
def response? : Event → Option Response
  | heard _ (.refused r) => some r
  | heard _ _ => none
  | concluded _ _ r => r

/-- The line that is heard. -/
def line? : Event → Option (String × Heard)
  | heard line h => some (line, h)
  | concluded .. => none

def concludes (n : Nat) : Event → Bool
  | concluded m _ _ => m = n
  | heard .. => false

def withdraws (n : Nat) : Event → Bool
  | heard _ (.withdrawn m) => m = n
  | _ => false

/-- The response to a request that concludes. -/
def responseTo? (n : Nat) : Event → Option Response
  | concluded m _ r => if m = n then r else none
  | heard .. => none

end Event

/-- The number of a request that is accepted. -/
def Heard.number? : Heard → Option Nat
  | .accepted n _ => some n
  | _ => none

/-- The lines of a record, and what was heard on them. -/
def linesOf (es : List Event) : List (String × Heard) := es.filterMap Event.line?

/-- The response to what was heard, if there is one in a record. -/
def answer? (es : List Event) : Heard → Option Response
  | .refused r => some r
  | .accepted n _ => es.findSome? (Event.responseTo? n)
  | _ => none

/-- A request may end so: as its method says, or with some answer to its call. -/
def MayEnd (name : String) (r : Request) (outcome : Except Fault Json) : Prop :=
  match r.task name with
  | .respond o => outcome = o
  | .call _ => ∃ a : Answer, outcome = .ok a.content

/-- What is owed to a line by a record. -/
inductive Answered (name : String) (es : List Event) (line : String) :
    Heard → Option Response → Prop where
  | blank (h : said? line = none) : Answered name es line .nothing none
  | refused {why : Fault} (h : said? line = some (.error (foundId (content line), why))) :
    Answered name es line (.refused ⟨foundId (content line), .error why⟩)
      (some ⟨foundId (content line), .error why⟩)
  | notified {r : Request} (h : said? line = some (.ok r)) (hm : r.method ≠ withdrawalMethod)
    (hid : r.id = none) : Answered name es line .nothing none
  | unheeded {r : Request} (h : said? line = some (.ok r)) (hm : r.method = withdrawalMethod) :
    Answered name es line .nothing none
  | withdrawal {r : Request} {n : Nat} (h : said? line = some (.ok r))
    (hm : r.method = withdrawalMethod) : Answered name es line (.withdrawn n) none
  | answered {n : Nat} {r : Request} {id : Json} {outcome : Except Fault Json}
    (h : Requests line r id) (ho : MayEnd name r outcome)
    (hend : .concluded n outcome (some ⟨id, outcome⟩) ∈ es)
    (hnot : ∀ l, .heard l (.withdrawn n) ∉ es) :
    Answered name es line (.accepted n r) (some ⟨id, outcome⟩)
  /-- A line that names it comes before it concludes. -/
  | withdrawn {n : Nat} {r w : Request} {id : Json} {outcome : Except Fault Json} {l : String}
    {before between after : List Event} (h : Requests line r id) (hw : Withdraws l w id)
    (hes : es = before ++ .heard l (.withdrawn n) :: between ++ .concluded n outcome none :: after) :
    Answered name es line (.accepted n r) none

/-- The records of sessions that begin with nothing. A request concludes once, after it has been
accepted. -/
inductive Recorded (name : String) : List Event → Session → Prop where
  | nil : Recorded name [] .empty
  | heard {es : List Event} {s s' : Session} {line : String} {h : Heard}
    (hrecord : Recorded name es s) (hhears : Hears s line s' h) :
    Recorded name (es ++ [.heard line h]) s'
  | concluded {es : List Event} {s : Session} {line : String} {n : Nat} {r : Request}
    {outcome : Except Fault Json} (hrecord : Recorded name es s)
    (hheard : .heard line (.accepted n r) ∈ es) (hopen : es.any (Event.concludes n) = false)
    (ho : MayEnd name r outcome) :
    Recorded name (es ++ [.concluded n outcome (s.conclude n outcome).2]) (s.conclude n outcome).1

/-! ## Tickets -/

/-- Whether a request has concluded. -/
def isConcluded (s : Session) (n : Nat) : Bool := (s.tickets[n]?.map (·.isConcluded)).getD false

/-- Whether a request was withdrawn. -/
def isWithdrawn (s : Session) (n : Nat) : Bool := (s.tickets[n]?.map (·.isWithdrawn)).getD false

variable {s s' : Session} {n m : Nat} {t : Ticket}

theorem getElem?_accept (s : Session) (id : Json) (n : Nat) :
    (s.accept id).tickets[n]? =
      if n = s.tickets.length then some ⟨id, false, false⟩ else s.tickets[n]? := by
  rw [tickets_accept]
  split_ifs with h
  · rw [h, List.getElem?_concat_length]
  · rcases Nat.lt_or_ge n s.tickets.length with hlt | hge
    · exact List.getElem?_append_left hlt
    · rw [List.getElem?_eq_none hge, List.getElem?_eq_none]
      rw [List.length_append, List.length_singleton]
      omega

/-- A mark that a new ticket does not bear. -/
theorem mark_accept {f : Ticket → Bool} {id : Json} (hf : f ⟨id, false, false⟩ = false)
    (s : Session) (n : Nat) :
    ((s.accept id).tickets[n]?.map f).getD false = (s.tickets[n]?.map f).getD false := by
  rw [getElem?_accept]
  split_ifs with h
  · rw [h, List.getElem?_eq_none (Nat.le_refl _)]
    exact hf
  · rfl

/-- A mark that a change of a ticket leaves alone. -/
theorem mark_modify_of_eq {f : Ticket → Bool} {g : Ticket → Ticket} (hf : ∀ t, f (g t) = f t)
    (ts : List Ticket) (m n : Nat) :
    ((ts.modify m g)[n]?.map f).getD false = (ts[n]?.map f).getD false := by
  rw [List.getElem?_modify]
  cases ts[n]? with
  | none => rfl
  | some t => by_cases h : m = n <;> simp [h, hf]

/-- A mark that a change of a ticket sets. -/
theorem mark_modify_of_true {f : Ticket → Bool} {g : Ticket → Ticket} (hf : ∀ t, f (g t) = true)
    {ts : List Ticket} (ht : ts[m]? = some t) (n : Nat) :
    ((ts.modify m g)[n]?.map f).getD false = ((ts[n]?.map f).getD false || decide (m = n)) := by
  rw [List.getElem?_modify]
  by_cases h : m = n
  · subst h
    rw [ht]
    simp [hf]
  · cases ts[n]? <;> simp [h]

@[simp] theorem isConcluded_accept (s : Session) (id : Json) (n : Nat) :
    (s.accept id).isConcluded n = s.isConcluded n := mark_accept rfl s n

@[simp] theorem isWithdrawn_accept (s : Session) (id : Json) (n : Nat) :
    (s.accept id).isWithdrawn n = s.isWithdrawn n := mark_accept rfl s n

@[simp] theorem isConcluded_withdraw (s : Session) (m n : Nat) :
    (s.withdraw m).isConcluded n = s.isConcluded n := by
  refine mark_modify_of_eq ?_ s.tickets m n
  exact fun _ => rfl

theorem isWithdrawn_withdraw (ht : s.tickets[m]? = some t) (n : Nat) :
    (s.withdraw m).isWithdrawn n = (s.isWithdrawn n || decide (m = n)) :=
  mark_modify_of_true (fun _ => rfl) ht n

theorem tickets_conclude (ht : s.tickets[m]? = some t) (outcome : Except Fault Json) :
    (s.conclude m outcome).1.tickets = s.tickets.modify m ({ · with isConcluded := true }) := by
  rw [conclude_of_ticket ht]
  rfl

theorem isConcluded_conclude (ht : s.tickets[m]? = some t) (outcome : Except Fault Json) (n : Nat) :
    (s.conclude m outcome).1.isConcluded n = (s.isConcluded n || decide (m = n)) := by
  unfold isConcluded
  rw [tickets_conclude ht]
  exact mark_modify_of_true (fun _ => rfl) ht n

theorem isWithdrawn_conclude (ht : s.tickets[m]? = some t) (outcome : Except Fault Json) (n : Nat) :
    (s.conclude m outcome).1.isWithdrawn n = s.isWithdrawn n := by
  unfold isWithdrawn
  rw [tickets_conclude ht]
  refine mark_modify_of_eq ?_ s.tickets m n
  exact fun _ => rfl

/-- The response to a request that has ended, unless it was withdrawn. -/
def responseTo? (s : Session) (n : Nat) (outcome : Except Fault Json) : Option Response :=
  s.tickets[n]?.bind fun t => if t.isWithdrawn then none else some ⟨t.id, outcome⟩

theorem conclude_snd (s : Session) (n : Nat) (outcome : Except Fault Json) :
    (s.conclude n outcome).2 = s.responseTo? n outcome := by
  unfold conclude responseTo?
  cases s.tickets[n]? <;> rfl

/-- Whatever else concludes, the response is the same. -/
theorem responseTo?_conclude (ht : s.tickets[m]? = some t) (outcome : Except Fault Json) (n : Nat)
    (outcome' : Except Fault Json) :
    (s.conclude m outcome).1.responseTo? n outcome' = s.responseTo? n outcome' := by
  unfold responseTo?
  rw [tickets_conclude ht, List.getElem?_modify]
  cases s.tickets[n]? with
  | none => rfl
  | some u => dsimp only [Option.map_eq_map, Option.map_some]; split_ifs <;> rfl

/-- Whatever is heard after a request has concluded, the response to it is the same. -/
theorem responseTo?_hears {line : String} {h : Heard} (hs : s.Sound) (hhears : Hears s line s' h)
    (hn : s.isConcluded n = true) (outcome : Except Fault Json) :
    s'.responseTo? n outcome = s.responseTo? n outcome := by
  unfold responseTo?
  cases hhears with
  | accepted hr =>
      rw [getElem?_accept, if_neg]
      rintro rfl
      rw [isConcluded, List.getElem?_eq_none (Nat.le_refl _)] at hn
      cases hn
  | @withdrawn r id m hw hm =>
      obtain ⟨t, ht, -, hopen⟩ := hs.exists_ticket hw hm
      rw [tickets_withdraw, List.getElem?_modify_ne]
      rintro rfl
      rw [isConcluded, ht] at hn
      exact absurd (hopen.symm.trans hn) (by decide)
  | _ => rfl

/-- The requests of a session keep their places and their identifiers. -/
def Keeps (s s' : Session) : Prop :=
  ∀ (n : Nat) (t : Ticket), s.tickets[n]? = some t → ∃ t', s'.tickets[n]? = some t' ∧ t'.id = t.id

theorem keeps_modify {f : Ticket → Ticket} (h : s'.tickets = s.tickets.modify m f)
    (hf : ∀ t, (f t).id = t.id) : Keeps s s' := by
  intro n t ht
  refine ⟨if m = n then f t else t, ?_, ?_⟩
  · rw [h, List.getElem?_modify, ht]
    rfl
  · split_ifs
    · exact hf t
    · rfl

theorem keeps_hears {line : String} {h : Heard} (hhears : Hears s line s' h) : Keeps s s' := by
  cases hhears with
  | accepted hr =>
      intro n t ht
      have hne : n ≠ s.tickets.length := Nat.ne_of_lt (List.getElem?_eq_some_iff.1 ht).1
      exact ⟨t, by rw [getElem?_accept, if_neg hne, ht], rfl⟩
  | withdrawn hw hn => exact keeps_modify (tickets_withdraw s _) fun _ => rfl
  | _ => exact fun n t ht => ⟨t, ht, rfl⟩

/-! ## What is added to a record -/

variable {name : String} {es : List Event} {line : String} {h : Heard} {r : Request}
  {outcome : Except Fault Json} {response a : Option Response}

theorem linesOf_heard (es : List Event) (line : String) (h : Heard) :
    linesOf (es ++ [.heard line h]) = linesOf es ++ [(line, h)] := List.filterMap_append

theorem linesOf_concluded (es : List Event) (n : Nat) (outcome : Except Fault Json)
    (response : Option Response) : linesOf (es ++ [.concluded n outcome response]) = linesOf es := by
  simp [linesOf, Event.line?]

theorem mem_linesOf : (line, h) ∈ linesOf es ↔ .heard line h ∈ es := by
  unfold linesOf
  rw [List.mem_filterMap]
  constructor
  · rintro ⟨e, he, hline⟩
    cases e with
    | heard l h' =>
        cases hline
        exact he
    | concluded => cases hline
  · exact fun hmem => ⟨_, hmem, rfl⟩

theorem any_withdraws : es.any (Event.withdraws n) = true ↔ ∃ l, .heard l (.withdrawn n) ∈ es := by
  rw [List.any_eq_true]
  constructor
  · rintro ⟨e, he, hn⟩
    cases e with
    | concluded => cases hn
    | heard l h =>
        cases h with
        | withdrawn m =>
            obtain rfl := of_decide_eq_true hn
            exact ⟨l, he⟩
        | _ => cases hn
  · rintro ⟨l, he⟩
    exact ⟨_, he, decide_eq_true rfl⟩

theorem any_concludes_heard (es : List Event) (line : String) (h : Heard) (n : Nat) :
    (es ++ [Event.heard line h]).any (Event.concludes n) = es.any (Event.concludes n) := by
  simp [Event.concludes]

theorem any_concludes_concluded (es : List Event) (m : Nat) (outcome : Except Fault Json)
    (response : Option Response) (n : Nat) :
    (es ++ [Event.concluded m outcome response]).any (Event.concludes n) =
      (es.any (Event.concludes n) || decide (m = n)) := by
  simp [Event.concludes]

theorem mem_heard_concluded : .heard line h ∈ es ++ [Event.concluded n outcome response] ↔
    .heard line h ∈ es := by
  simp

theorem answer?_heard (es : List Event) (line : String) (h' h : Heard) :
    answer? (es ++ [.heard line h']) h = answer? es h := by
  cases h <;> simp [answer?, List.findSome?_append, Event.responseTo?]

theorem answer?_concluded_of_ne (hne : h.number? ≠ some m) :
    answer? (es ++ [.concluded m outcome response]) h = answer? es h := by
  cases h with
  | accepted n r =>
      have hmn : m ≠ n := fun hmn => hne (congrArg some hmn.symm)
      simp [answer?, List.findSome?_append, Event.responseTo?, hmn]
  | _ => rfl

theorem answer?_of_open (hopen : es.any (Event.concludes n) = false) :
    answer? es (.accepted n r) = none := by
  refine List.findSome?_eq_none_iff.2 fun e he => ?_
  have hn := List.any_eq_false.1 hopen e he
  cases e with
  | heard => rfl
  | concluded m outcome response => exact if_neg fun hm => hn (decide_eq_true hm)

theorem answer?_concluded (hopen : es.any (Event.concludes n) = false) :
    answer? (es ++ [.concluded n outcome response]) (.accepted n r) = response := by
  have hnone : es.findSome? (Event.responseTo? n) = none := answer?_of_open hopen (r := r)
  simp [answer?, List.findSome?_append, hnone, Event.responseTo?]

/-- What is owed stays so, if what happens next is not that the request is withdrawn. -/
theorem Answered.append {e : Event} (ha : Answered name es line h a)
    (he : ∀ n ∈ h.number?, e.withdraws n = false) : Answered name (es ++ [e]) line h a := by
  cases ha with
  | blank hsaid => exact .blank hsaid
  | refused hsaid => exact .refused hsaid
  | notified hsaid hm hid => exact .notified hsaid hm hid
  | unheeded hsaid hm => exact .unheeded hsaid hm
  | withdrawal hsaid hm => exact .withdrawal hsaid hm
  | @answered n r id outcome hr ho hend hnot =>
      refine .answered hr ho (List.mem_append_left _ hend) fun l hl => ?_
      rcases List.mem_append.1 hl with hl | hl
      · exact hnot l hl
      · obtain rfl := List.mem_singleton.1 hl
        exact absurd (decide_eq_true rfl) (Bool.eq_false_iff.1 (he n rfl))
  | @withdrawn n r w id outcome l before between after hr hw hes =>
      have happend : es ++ [e] = before ++ .heard l (.withdrawn n) :: between ++
          .concluded n outcome none :: (after ++ [e]) := by
        rw [hes, List.append_assoc]
        rfl
      exact .withdrawn hr hw happend

/-! ## What a record says is so -/

/-- A record that says of a session what is so, and of its lines what they are owed. -/
structure Faithful (name : String) (es : List Event) (s : Session) : Prop where
  sound : s.Sound
  numbers : (linesOf es).filterMap (·.2.number?) = List.range s.tickets.length
  requests : ∀ line n r, .heard line (.accepted n r) ∈ es →
    ∃ t, s.tickets[n]? = some t ∧ Requests line r t.id
  concluded : ∀ n, s.isConcluded n = es.any (Event.concludes n)
  withdrawn : ∀ n, s.isWithdrawn n = es.any (Event.withdraws n)
  withdrawals : ∀ l n, .heard l (.withdrawn n) ∈ es →
    ∃ t w, s.tickets[n]? = some t ∧ Withdraws l w t.id
  answered : ∀ line h, .heard line h ∈ es →
    (∀ n ∈ h.number?, es.any (Event.concludes n) = true) → Answered name es line h (answer? es h)

namespace Faithful

theorem empty : Faithful name [] .empty where
  sound := sound_empty
  numbers := rfl
  requests _ _ _ hr := nomatch hr
  concluded _ := rfl
  withdrawn _ := rfl
  withdrawals _ _ hw := nomatch hw
  answered _ _ ha := nomatch ha

variable (hf : Faithful name es s)
include hf

theorem exists_ticket_of_hears (hhears : Hears s line s' (.withdrawn n)) :
    ∃ t w, s.tickets[n]? = some t ∧ t.isConcluded = false ∧ Withdraws line w t.id ∧
      s' = s.withdraw n := by
  cases hhears with
  | withdrawn hw hn =>
      obtain ⟨t, ht, rfl, hconcluded⟩ := hf.sound.exists_ticket hw hn
      exact ⟨t, _, ht, hconcluded, hw, rfl⟩

/-- What is heard concludes nothing. -/
theorem concluded_hears (hhears : Hears s line s' h) (n : Nat) :
    s'.isConcluded n = (es ++ [Event.heard line h]).any (Event.concludes n) := by
  have hsame : s'.isConcluded n = s.isConcluded n := by
    cases hhears <;> simp
  rw [hsame, hf.concluded, any_concludes_heard]

theorem withdrawn_hears (hhears : Hears s line s' h) (n : Nat) :
    s'.isWithdrawn n = (es ++ [Event.heard line h]).any (Event.withdraws n) := by
  rw [List.any_append, ← hf.withdrawn]
  cases hhears with
  | @withdrawn r id m hw hn =>
      obtain ⟨t, ht, -, -⟩ := hf.sound.exists_ticket hw hn
      simpa [Event.withdraws] using isWithdrawn_withdraw ht n
  | accepted hr => simp [Event.withdraws]
  | _ => simp [Event.withdraws]

theorem numbers_hears (hhears : Hears s line s' h) :
    (linesOf (es ++ [.heard line h])).filterMap (·.2.number?) = List.range s'.tickets.length := by
  rw [linesOf_heard, List.filterMap_append, hf.numbers]
  cases hhears with
  | accepted hr => simp [Heard.number?, List.range_succ]
  | withdrawn hw hn => simp [Heard.number?]
  | _ => simp [Heard.number?]

/-- What is withdrawn has not concluded. -/
theorem withdraws_hears (hhears : Hears s line s' h) (n : Nat)
    (hn : es.any (Event.concludes n) = true) : Event.withdraws n (.heard line h) = false := by
  cases h with
  | withdrawn m =>
      obtain ⟨t, w, ht, hconcluded, -⟩ := hf.exists_ticket_of_hears hhears
      refine decide_eq_false ?_
      rintro rfl
      rw [← hf.concluded, isConcluded, ht] at hn
      exact absurd (hconcluded.symm.trans hn) (by decide)
  | _ => rfl

omit hf in
/-- Of a line that is heard and that is no request it is settled what it is owed. -/
theorem answered_self (hhears : Hears s line s' h) (hh : h.number? = none) (es : List Event) :
    Answered name es line h (answer? es h) := by
  cases hhears with
  | blank hsaid => exact .blank hsaid
  | @refused id why hsaid =>
      have hfound : id = foundId (content line) := by
        unfold said? at hsaid
        split_ifs at hsaid
        exact id_of_ofText (Option.some.inj hsaid)
      rw [hfound] at hsaid ⊢
      exact .refused hsaid
  | notified hsaid hm hid => exact .notified hsaid hm hid
  | accepted hr => cases hh
  | unheeded hsaid hm => exact .unheeded hsaid hm
  | withdrawn hw hn => exact .withdrawal hw.said hw.method

/-- A request that is new has not concluded. -/
theorem open_of_hears (hhears : Hears s line s' (.accepted n r)) :
    es.any (Event.concludes n) = false := by
  cases hhears with
  | accepted hr =>
      rw [← hf.concluded, isConcluded, List.getElem?_eq_none (Nat.le_refl _)]
      rfl

theorem number?_eq_none (hhears : Hears s line s' h)
    (hdone : ∀ n ∈ h.number?, es.any (Event.concludes n) = true) : h.number? = none := by
  cases h with
  | accepted n r => exact absurd (hdone n rfl) (by rw [hf.open_of_hears hhears]; decide)
  | _ => rfl

/-- A line is heard. -/
theorem hears (hhears : Hears s line s' h) : Faithful name (es ++ [.heard line h]) s' where
  sound := hf.sound.hears hhears
  numbers := hf.numbers_hears hhears
  requests l n r hmem := by
    rcases List.mem_append.1 hmem with hmem | hmem
    · obtain ⟨t, ht, hr⟩ := hf.requests l n r hmem
      obtain ⟨t', ht', hid⟩ := keeps_hears hhears n t ht
      exact ⟨t', ht', hid ▸ hr⟩
    · cases List.mem_singleton.1 hmem
      cases hhears with
      | accepted hr => exact ⟨_, List.getElem?_concat_length, hr⟩
  concluded := hf.concluded_hears hhears
  withdrawn := hf.withdrawn_hears hhears
  withdrawals l n hmem := by
    rcases List.mem_append.1 hmem with hmem | hmem
    · obtain ⟨t, w, ht, hw⟩ := hf.withdrawals l n hmem
      obtain ⟨t', ht', hid⟩ := keeps_hears hhears n t ht
      exact ⟨t', w, ht', hid ▸ hw⟩
    · cases List.mem_singleton.1 hmem
      obtain ⟨t, w, ht, -, hw, -⟩ := hf.exists_ticket_of_hears hhears
      obtain ⟨t', ht', hid⟩ := keeps_hears hhears n t ht
      exact ⟨t', w, ht', hid ▸ hw⟩
  answered l h' hmem hdone := by
    have hbefore : ∀ n ∈ h'.number?, es.any (Event.concludes n) = true := fun n hn => by
      rw [← any_concludes_heard es line h n]
      exact hdone n hn
    rw [answer?_heard]
    rcases List.mem_append.1 hmem with hmem | hmem
    · exact (hf.answered l h' hmem hbefore).append fun n hn =>
        hf.withdraws_hears hhears n (hbefore n hn)
    · cases List.mem_singleton.1 hmem
      rw [← answer?_heard es line h]
      exact answered_self hhears (hf.number?_eq_none hhears hbefore) _

/-- A request is the only one of its number. -/
theorem exists_split (hheard : .heard line (.accepted n r) ∈ es) :
    ∃ before after, linesOf es = before ++ (line, .accepted n r) :: after ∧
      ∀ p ∈ before ++ after, p.2.number? ≠ some n := by
  obtain ⟨before, after, hsplit⟩ := List.append_of_mem (mem_linesOf.2 hheard)
  have hnodup : ((linesOf es).filterMap (·.2.number?)).Nodup := by
    rw [hf.numbers]
    exact List.nodup_range
  have hself : ((line, Heard.accepted n r) :: after).filterMap (·.2.number?) =
      n :: after.filterMap (·.2.number?) := List.filterMap_cons_some rfl
  rw [hsplit, List.filterMap_append, hself, List.nodup_middle, List.nodup_cons,
    ← List.filterMap_append] at hnodup
  exact ⟨before, after, hsplit, fun p hp hn => hnodup.1 (List.mem_filterMap.2 ⟨p, hp, hn⟩)⟩

theorem exists_request {t : Ticket} (ht : s.tickets[n]? = some t) :
    ∃ line r, .heard line (.accepted n r) ∈ es ∧ Requests line r t.id := by
  have hn : n ∈ (linesOf es).filterMap (·.2.number?) := by
    rw [hf.numbers, List.mem_range]
    exact (List.getElem?_eq_some_iff.1 ht).1
  obtain ⟨⟨line, h⟩, hmem, hn⟩ := List.mem_filterMap.1 hn
  cases h with
  | accepted m r =>
      cases hn
      obtain ⟨u, hu, hr⟩ := hf.requests line n r (mem_linesOf.1 hmem)
      rw [ht] at hu
      cases hu
      exact ⟨line, r, mem_linesOf.1 hmem, hr⟩
  | _ => cases hn

theorem request_unique {l : String} {r' : Request} (hheard : .heard line (.accepted n r) ∈ es)
    (hheard' : .heard l (.accepted n r') ∈ es) : r = r' := by
  obtain ⟨before, after, hsplit, hothers⟩ := hf.exists_split hheard
  have hmem := mem_linesOf.2 hheard'
  rw [hsplit, List.mem_append, List.mem_cons] at hmem
  rcases hmem with hmem | hmem | hmem
  · exact absurd rfl (hothers _ (List.mem_append_left _ hmem))
  · cases hmem
    rfl
  · exact absurd rfl (hothers _ (List.mem_append_right _ hmem))

/-- A request that concludes gets its response, unless it was withdrawn. -/
theorem answered_conclude (hheard : .heard line (.accepted n r) ∈ es)
    (ho : MayEnd name r outcome) :
    Answered name (es ++ [.concluded n outcome (s.conclude n outcome).2]) line (.accepted n r)
      (s.conclude n outcome).2 := by
  obtain ⟨t, ht, hr⟩ := hf.requests line n r hheard
  have hflag : t.isWithdrawn = es.any (Event.withdraws n) := by
    rw [← hf.withdrawn, isWithdrawn, ht]
    rfl
  have hresponse : (s.conclude n outcome).2 =
      if t.isWithdrawn then none else some ⟨t.id, outcome⟩ := by
    rw [conclude_of_ticket ht]
  cases hwithdrawn : t.isWithdrawn with
  | false =>
      rw [hwithdrawn] at hflag hresponse
      rw [hresponse, if_neg Bool.false_ne_true]
      refine .answered hr ho (List.mem_append_right _ List.mem_cons_self) fun l hl => ?_
      exact absurd (any_withdraws.2 ⟨l, mem_heard_concluded.1 hl⟩) (by rw [← hflag]; decide)
  | true =>
      rw [hwithdrawn] at hflag hresponse
      rw [hresponse, if_pos rfl]
      obtain ⟨l, hl⟩ := any_withdraws.1 hflag.symm
      obtain ⟨u, w, hu, hw⟩ := hf.withdrawals l n hl
      rw [ht] at hu
      cases hu
      obtain ⟨before, between, hsplit⟩ := List.append_of_mem hl
      have happend : es ++ [.concluded n outcome none] =
          before ++ .heard l (.withdrawn n) :: between ++ .concluded n outcome none :: [] := by
        rw [hsplit]
      exact .withdrawn hr hw happend

/-- A request concludes. -/
theorem concludes (hheard : .heard line (.accepted n r) ∈ es)
    (hopen : es.any (Event.concludes n) = false) (ho : MayEnd name r outcome) :
    Faithful name (es ++ [.concluded n outcome (s.conclude n outcome).2])
      (s.conclude n outcome).1 := by
  obtain ⟨t, ht, hr⟩ := hf.requests line n r hheard
  have hkeeps : Keeps s (s.conclude n outcome).1 := keeps_modify (tickets_conclude ht _) fun _ => rfl
  refine ⟨hf.sound.conclude ht outcome, ?_, fun l m r' hmem => ?_, fun m => ?_, fun m => ?_,
    fun l m hmem => ?_, fun l h' hmem hdone => ?_⟩
  · rw [linesOf_concluded, hf.numbers, tickets_conclude ht, List.length_modify]
  · obtain ⟨u, hu, hr'⟩ := hf.requests l m r' (mem_heard_concluded.1 hmem)
    obtain ⟨u', hu', hid⟩ := hkeeps m u hu
    exact ⟨u', hu', hid ▸ hr'⟩
  · rw [isConcluded_conclude ht, hf.concluded, any_concludes_concluded]
  · rw [isWithdrawn_conclude ht, hf.withdrawn, List.any_append]
    simp [Event.withdraws]
  · obtain ⟨u, w, hu, hw⟩ := hf.withdrawals l m (mem_heard_concluded.1 hmem)
    obtain ⟨u', hu', hid⟩ := hkeeps m u hu
    exact ⟨u', w, hu', hid ▸ hw⟩
  · have hbefore := mem_heard_concluded.1 hmem
    by_cases hn : h'.number? = some n
    · cases h' with
      | accepted m r' =>
          cases hn
          obtain rfl := hf.request_unique hheard hbefore
          rw [answer?_concluded hopen]
          exact hf.answered_conclude hbefore ho
      | _ => cases hn
    · rw [answer?_concluded_of_ne hn]
      refine (hf.answered l h' hbefore fun m hm => ?_).append fun _ _ => rfl
      have hne : n ≠ m := fun hnm => hn (hnm ▸ hm)
      have hany := hdone m hm
      rwa [any_concludes_concluded, decide_eq_false hne, Bool.or_false] at hany

end Faithful

variable (hrecord : Recorded name es s)
include hrecord

theorem Recorded.faithful : Faithful name es s := by
  induction hrecord with
  | nil => exact .empty
  | heard hrecord hhears ih => exact ih.hears hhears
  | concluded hrecord hheard hopen ho ih => exact ih.concludes hheard hopen ho

end SqlGate.Session
