import SqlGate.Proofs.Session.Answers

/-!
# What an identifier stands for

An identifier stands for the request that was accepted with it last, unless a request with it has
concluded since (`Recorded.find?_eq`). So it never stands for a request that is not under way, and a
line that withdraws it withdraws what it stands for and nothing else (`isWithdrawn_hear`).

If no identifier is used again while a request with it is under way (`Unshared`), the other half
holds too: the identifier of every request under way stands for it (`Recorded.find?_of_open`). A
client that uses one twice takes the first request out of its own reach.
-/

namespace SqlGate.Session

open Rpc

/-! ## One step -/

theorem lookup_filter_ne (xs : List (String × Nat)) (k key : String) :
    (xs.filter (·.1 ≠ k)).lookup key = if k = key then none else xs.lookup key := by
  induction xs with
  | nil => simp
  | cons x xs ih =>
      obtain ⟨k', n⟩ := x
      by_cases hk : k' = k
      · subst hk
        rw [List.filter_cons_of_neg (by simp), ih, List.lookup_cons]
        split_ifs with hkey
        · rfl
        · rw [beq_false_of_ne (Ne.symm hkey)]
      · rw [List.filter_cons_of_pos (by simpa using hk), List.lookup_cons, List.lookup_cons, ih]
        by_cases hkey : key = k'
        · subst hkey
          simp [Ne.symm hk]
        · rw [beq_false_of_ne hkey]

section Step

variable {s : Session} {n : Nat} {t : Ticket} {line : String} {w : Request} {id : Json}

theorem find?_accept (s : Session) (new id : Json) : (s.accept new).find? id =
    if new.text = id.text then some s.tickets.length else s.find? id := by
  change List.lookup id.text ((new.text, s.tickets.length) :: s.known.filter (·.1 ≠ new.text)) = _
  rw [List.lookup_cons, lookup_filter_ne]
  by_cases h : new.text = id.text
  · simp [h]
  · rw [beq_false_of_ne (Ne.symm h), if_neg h, if_neg h]
    rfl

theorem find?_conclude (ht : s.tickets[n]? = some t) (outcome : Except Fault Json) (id : Json) :
    (s.conclude n outcome).1.find? id = if t.id.text = id.text then none else s.find? id := by
  rw [conclude_of_ticket ht]
  exact lookup_filter_ne s.known t.id.text id.text

/-- A line that withdraws an identifier withdraws what it stands for, and nothing else. -/
theorem isWithdrawn_hear (hs : s.Sound) (h : Withdraws line w id) (n : Nat) :
    (s.hear line).1.isWithdrawn n = (s.isWithdrawn n || decide (s.find? id = some n)) := by
  rw [hear_of_withdraws h]
  cases hfind : s.find? id with
  | none => simp
  | some m =>
      obtain ⟨t, ht, -⟩ := hs.exists_ticket h hfind
      rw [isWithdrawn_withdraw ht]
      simp

end Step

/-! ## What is recorded of an identifier -/

namespace Event

/-- The request that is accepted, or concludes. -/
def number? : Event → Option Nat
  | heard _ h => h.number?
  | concluded n _ _ => some n

def accepted? : Event → Option Nat
  | heard _ h => h.number?
  | concluded .. => none

/-- The written form of the identifier of that request. -/
def key? (s : Session) (e : Event) : Option String :=
  e.number?.bind fun n => s.tickets[n]?.map (·.id.text)

theorem key?_of_ticket {s : Session} {e : Event} {n : Nat} {t : Ticket} (hn : e.number? = some n)
    (ht : s.tickets[n]? = some t) : e.key? s = some t.id.text := by
  rw [key?, hn, Option.bind_some, ht]
  rfl

end Event

/-- What has happened to requests with an identifier of some written form. -/
def eventsOf (s : Session) (es : List Event) (key : String) : List Event :=
  es.filter fun e => e.key? s = some key

/-- No identifier is used again while a request with it is under way. -/
def Unshared (es : List Event) : Prop :=
  ∀ (before after : List Event) (line : String) (n : Nat) (r : Request),
    es = before ++ .heard line (.accepted n r) :: after →
    ∀ (l : String) (m : Nat) (r' : Request), .heard l (.accepted m r') ∈ before →
      r'.id.map Json.text = r.id.map Json.text → before.any (Event.concludes m) = true

variable {name : String} {es : List Event} {s s' : Session} {e : Event} {n : Nat} {t : Ticket}
  {line : String} {r : Request} {id : Json} {outcome : Except Fault Json}

theorem Unshared.of_append (h : Unshared (es ++ [e])) : Unshared es := by
  intro before after line n r hes
  refine h before (after ++ [e]) line n r ?_
  rw [hes, List.append_assoc]
  rfl

theorem Faithful.exists_ticket_of_number (hf : Faithful name es s) (he : e ∈ es)
    (hn : e.number? = some n) : ∃ t, s.tickets[n]? = some t := by
  cases e with
  | heard line h =>
      cases h with
      | accepted m r =>
          cases hn
          obtain ⟨t, ht, -⟩ := hf.requests line n r he
          exact ⟨t, ht⟩
      | _ => cases hn
  | concluded m outcome response =>
      cases hn
      have hdone : s.isConcluded n = true := by
        rw [hf.concluded, List.any_eq_true]
        exact ⟨_, he, decide_eq_true rfl⟩
      cases ht : s.tickets[n]? with
      | some t => exact ⟨t, rfl⟩
      | none =>
          rw [isConcluded, ht] at hdone
          cases hdone

/-- What has happened stays what has happened to an identifier. -/
theorem Faithful.eventsOf_append (hf : Faithful name es s) (hkeeps : Keeps s s') (e : Event)
    (key : String) :
    eventsOf s' (es ++ [e]) key = eventsOf s es key ++ if e.key? s' = some key then [e] else [] := by
  have hsame : ∀ e ∈ es, e.key? s' = e.key? s := by
    intro e he
    cases hn : e.number? with
    | none => rw [Event.key?, Event.key?, hn, Option.bind_none, Option.bind_none]
    | some n =>
        obtain ⟨t, ht⟩ := hf.exists_ticket_of_number he hn
        obtain ⟨t', ht', hid⟩ := hkeeps n t ht
        rw [Event.key?_of_ticket hn ht, Event.key?_of_ticket hn ht', hid]
  rw [eventsOf, List.filter_append, eventsOf]
  congr 1
  · exact List.filter_congr fun e he => by rw [hsame e he]
  · split_ifs with hkey <;> simp [hkey]

/-- An identifier stands for the request that was accepted with it, if that is the last that has
happened to a request with it. -/
theorem Recorded.find?_eq (hrecord : Recorded name es s) (id : Json) :
    s.find? id = (eventsOf s es id.text).getLast?.bind Event.accepted? := by
  induction hrecord with
  | nil => rfl
  | @heard es s s' line h hrecord hhears ih =>
      rw [hrecord.faithful.eventsOf_append (keeps_hears hhears)]
      have hother : h.number? = none → s'.find? id = s.find? id →
          s'.find? id = (eventsOf s es id.text ++ if (Event.heard line h).key? s' = some id.text
            then [Event.heard line h] else []).getLast?.bind Event.accepted? := by
        intro hnone hfind
        have hkey : (Event.heard line h).key? s' = none := by
          rw [Event.key?, Event.number?, hnone, Option.bind_none]
        rw [hkey, if_neg nofun, List.append_nil, hfind, ih]
      cases hhears with
      | @accepted r new hr =>
          have hnew : (s.accept new).tickets[s.tickets.length]? = some ⟨new, false, false⟩ :=
            List.getElem?_concat_length
          have hkey : (Event.heard line (.accepted s.tickets.length r)).key? (s.accept new) =
              some new.text := Event.key?_of_ticket rfl hnew
          rw [hkey, find?_accept]
          by_cases htext : new.text = id.text
          · rw [if_pos htext, if_pos (congrArg some htext), List.getLast?_concat]
            rfl
          · rw [if_neg htext, if_neg (fun hc => htext (Option.some.inj hc)), List.append_nil, ih]
      | _ => exact hother rfl rfl
  | @concluded es s line n r outcome hrecord hheard hopen ho ih =>
      obtain ⟨t, ht, -⟩ := hrecord.faithful.requests line n r hheard
      have hkeeps : Keeps s (s.conclude n outcome).1 :=
        keeps_modify (tickets_conclude ht _) fun _ => rfl
      obtain ⟨t', ht', hid⟩ := hkeeps n t ht
      rw [hrecord.faithful.eventsOf_append hkeeps, Event.key?_of_ticket rfl ht', hid,
        find?_conclude ht]
      by_cases htext : t.id.text = id.text
      · rw [if_pos htext, if_pos (congrArg some htext), List.getLast?_concat]
        rfl
      · rw [if_neg htext, if_neg (fun hc => htext (Option.some.inj hc)), List.append_nil, ih]

/-- If no identifier is used again too early, that of a request under way stands for it. -/
theorem Recorded.find?_of_open (hrecord : Recorded name es s) (hunshared : Unshared es)
    (ht : s.tickets[n]? = some t) (hopen : t.isConcluded = false) : s.find? t.id = some n := by
  induction hrecord generalizing n t with
  | nil => cases ht
  | @heard es s s' line h hrecord hhears ih =>
      have hf := hrecord.faithful
      cases hhears with
      | @accepted r new hr =>
          rw [getElem?_accept] at ht
          rw [find?_accept]
          split_ifs at ht with hn
          · cases ht
            rw [if_pos rfl, hn]
          · rw [if_neg, ih hunshared.of_append ht hopen]
            -- The request under way was accepted earlier, and has not concluded.
            intro htext
            obtain ⟨l, r', hheard, hr'⟩ := hf.exists_request ht
            have hkeys : r'.id.map Json.text = r.id.map Json.text := by
              rw [hr'.id, hr.id, Option.map_some, Option.map_some, htext]
            have hdone := hunshared es [] line _ r rfl l n r' hheard hkeys
            rw [← hf.concluded, isConcluded, ht] at hdone
            exact absurd (hopen.symm.trans hdone) (by decide)
      | @withdrawn w new m hw hm =>
          rw [tickets_withdraw, List.getElem?_modify] at ht
          obtain ⟨u, hu, rfl⟩ := Option.map_eq_some_iff.1 ht
          have hsame : (if m = n then { u with isWithdrawn := true } else u).isConcluded =
              u.isConcluded ∧ (if m = n then { u with isWithdrawn := true } else u).id = u.id := by
            split_ifs <;> exact ⟨rfl, rfl⟩
          rw [hsame.1] at hopen
          rw [hsame.2]
          exact ih hunshared.of_append hu hopen
      | _ => exact ih hunshared.of_append ht hopen
  | @concluded es s line m r outcome hrecord hheard hm ho ih =>
      have hf := hrecord.faithful
      obtain ⟨u, hu, -⟩ := hf.requests line m r hheard
      have hmopen : u.isConcluded = false := by
        rw [← hf.concluded, isConcluded, hu] at hm
        exact hm
      have hfound := ih hunshared.of_append hu hmopen
      by_cases hmn : m = n
      · have hdone := isConcluded_conclude hu outcome n
        rw [isConcluded, ht, decide_eq_true hmn, Bool.or_true] at hdone
        exact absurd (hopen.symm.trans hdone) (by decide)
      · rw [tickets_conclude hu, List.getElem?_modify_ne _ _ hmn] at ht
        have hstill := ih hunshared.of_append ht hopen
        rw [find?_conclude hu, if_neg, hstill]
        -- No two requests under way have the same identifier.
        intro htext
        unfold find? at hfound hstill
        rw [htext, hstill] at hfound
        exact hmn (Option.some.inj hfound).symm

end SqlGate.Session
