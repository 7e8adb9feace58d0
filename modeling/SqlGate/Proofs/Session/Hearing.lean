import SqlGate.Proofs.Rpc.Identifiers
import SqlGate.Session

/-!
# What a session makes of a line

A line says nothing, or it says what is no request, or a request. `Hears` lists what a session makes
of each of them. An identifier stands for a request that has been accepted and has not concluded
(`Sound`), so nothing is withdrawn after it has concluded, and what is withdrawn has the identifier
that the withdrawal names (`Sound.exists_ticket`).
-/

namespace SqlGate.Session

open Rpc

variable {s s' : Session} {line : String} {heard : Heard} {n : Nat}

/-- A line without the blanks at its ends. -/
def content (line : String) : String := String.ofList (Text.trim line.toList)

/-- What a line says, if it is not blank: a request, or why it is none and to whom that is told. -/
def said? (line : String) : Option (Except (Json × Fault) Request) :=
  if (Text.trim line.toList).isEmpty then none else some (Request.ofText (content line))

theorem said?_of_trim (text : String) (h : Text.trim line.toList = text.toList)
    (htext : text.toList.isEmpty = false) : said? line = some (Request.ofText text) := by
  rw [said?, content, h, htext, if_neg Bool.false_ne_true, String.ofList_toList]

/-- A line that says a request with an identifier, which is no withdrawal. -/
structure Requests (line : String) (r : Request) (id : Json) : Prop where
  said : said? line = some (.ok r)
  method : r.method ≠ withdrawalMethod
  id : r.id = some id

/-- A line that withdraws what has an identifier. -/
structure Withdraws (line : String) (r : Request) (id : Json) : Prop where
  said : said? line = some (.ok r)
  method : r.method = withdrawalMethod
  names : ∃ v, r.params = some v ∧ withdrawal (.ofJson v) = .ok id

/-- What a session may make of a line. -/
inductive Hears (s : Session) (line : String) : Session → Heard → Prop where
  | blank (h : said? line = none) : Hears s line s .nothing
  | refused {id : Json} {why : Fault} (h : said? line = some (.error (id, why))) :
    Hears s line s (.refused ⟨id, .error why⟩)
  | notified {r : Request} (h : said? line = some (.ok r)) (hm : r.method ≠ withdrawalMethod)
    (hid : r.id = none) : Hears s line s .nothing
  | accepted {r : Request} {id : Json} (h : Requests line r id) :
    Hears s line (s.accept id) (.accepted s.tickets.length r)
  | unheeded {r : Request} (h : said? line = some (.ok r)) (hm : r.method = withdrawalMethod) :
    Hears s line s .nothing
  | withdrawn {r : Request} {id : Json} {n : Nat} (h : Withdraws line r id)
    (hn : s.find? id = some n) : Hears s line (s.withdraw n) (.withdrawn n)

theorem exists_of_withdrawn? {params : Option Json} (h : s.withdrawn? params = some n) :
    ∃ v id, params = some v ∧ withdrawal (.ofJson v) = .ok id ∧ s.find? id = some n := by
  obtain ⟨v, rfl, h⟩ := Option.bind_eq_some_iff.1 h
  obtain ⟨id, hid, hn⟩ := Option.bind_eq_some_iff.1 h
  exact ⟨v, id, rfl, eq_ok_iff_toOption.2 hid, hn⟩

theorem hears_take {r : Request} (h : said? line = some (.ok r)) :
    Hears s line (s.take r).1 (s.take r).2 := by
  unfold take
  split
  · rename_i hm
    split
    · rename_i n hn
      obtain ⟨v, id, hv, hid, hfind⟩ := exists_of_withdrawn? hn
      exact .withdrawn ⟨h, hm, v, hv, hid⟩ hfind
    · exact .unheeded h hm
  · rename_i hm
    split
    · rename_i id hid
      exact .accepted ⟨h, hm, hid⟩
    · rename_i hid
      exact .notified h hm hid

theorem hears_hear (s : Session) (line : String) :
    Hears s line (s.hear line).1 (s.hear line).2 := by
  unfold hear
  dsimp only
  split
  · rename_i hblank
    exact .blank (if_pos hblank)
  · rename_i hblank
    have hsaid : said? line = some (Request.ofText (content line)) := if_neg hblank
    split
    · rename_i id why hr
      exact .refused (hsaid.trans (congrArg some hr))
    · rename_i r hr
      exact hears_take (hsaid.trans (congrArg some hr))

theorem hear_of_said {r : Request} (h : said? line = some (.ok r)) : s.hear line = s.take r := by
  unfold said? at h
  split at h
  · cases h
  · rename_i hblank
    have htext : Request.ofText (String.ofList (Text.trim line.toList)) = .ok r := Option.some.inj h
    unfold hear
    dsimp only
    rw [if_neg hblank, htext]

theorem hear_of_refused {id : Json} {why : Fault} (h : said? line = some (.error (id, why))) :
    s.hear line = (s, .refused ⟨id, .error why⟩) := by
  unfold said? at h
  split at h
  · cases h
  · rename_i hblank
    have htext : Request.ofText (String.ofList (Text.trim line.toList)) = .error (id, why) :=
      Option.some.inj h
    unfold hear
    dsimp only
    rw [if_neg hblank, htext]

theorem hear_of_requests {r : Request} {id : Json} (h : Requests line r id) :
    s.hear line = (s.accept id, .accepted s.tickets.length r) := by
  rw [hear_of_said h.said, take, if_neg h.method, h.id]

/-- A line that withdraws an identifier withdraws what it stands for. -/
theorem hear_of_withdraws {r : Request} {id : Json} (h : Withdraws line r id) : s.hear line =
    match s.find? id with
    | some n => (s.withdraw n, .withdrawn n)
    | none => (s, .nothing) := by
  obtain ⟨v, hv, hid⟩ := h.names
  have hwithdrawn : s.withdrawn? r.params = s.find? id := by
    rw [withdrawn?, hv]
    change (withdrawal (.ofJson v)).toOption >>= s.find? = _
    rw [hid]
    rfl
  rw [hear_of_said h.said, take, if_pos h.method]
  cases hfind : s.find? id <;> simp only [hwithdrawn, hfind]

/-! ## Tickets -/

@[simp] theorem tickets_accept (s : Session) (id : Json) :
    (s.accept id).tickets = s.tickets ++ [⟨id, false, false⟩] := rfl

@[simp] theorem tickets_withdraw (s : Session) (n : Nat) :
    (s.withdraw n).tickets = s.tickets.modify n ({ · with isWithdrawn := true }) := rfl

theorem conclude_of_ticket {t : Ticket} (h : s.tickets[n]? = some t)
    (outcome : Except Fault Json) :
    s.conclude n outcome =
      (forget { s with tickets := s.tickets.modify n ({ · with isConcluded := true }) } t.id,
        if t.isWithdrawn then none else some ⟨t.id, outcome⟩) := by
  rw [conclude, h]

/-- The identifiers come from texts, and each that is known stands for a request under way. -/
structure Sound (s : Session) : Prop where
  readable : ∀ t ∈ s.tickets, Json.Readable t.id
  known : ∀ p ∈ s.known, ∃ t, s.tickets[p.2]? = some t ∧ t.id.text = p.1 ∧ t.isConcluded = false

theorem sound_empty : Sound empty :=
  ⟨fun _ ht => (nomatch ht), fun _ hp => nomatch hp⟩

theorem readable_of_said? {r : Request} (h : said? line = some (.ok r)) : r.IsReadable := by
  unfold said? at h
  split at h
  · cases h
  · exact readable_of_ofText (Option.some.inj h)

theorem mem_known_of_find? {id : Json} (h : s.find? id = some n) : (id.text, n) ∈ s.known := by
  obtain ⟨l₁, l₂, hknown, -⟩ := List.lookup_eq_some_iff.1 h
  rw [hknown]
  exact List.mem_append_right l₁ List.mem_cons_self

/-- What is withdrawn is under way, and has the identifier that is named. -/
theorem Sound.exists_ticket (hs : s.Sound) {r : Request} {id : Json} (h : Withdraws line r id)
    (hn : s.find? id = some n) :
    ∃ t, s.tickets[n]? = some t ∧ t.id = id ∧ t.isConcluded = false := by
  obtain ⟨t, ht, htext, hconcluded⟩ := hs.known _ (mem_known_of_find? hn)
  obtain ⟨v, hv, hid⟩ := h.names
  have hreadable := readable_of_withdrawal ((readable_of_said? h.said).2 v hv) hid
  exact ⟨t, ht, Json.eq_of_text_eq (hs.readable t (List.mem_of_getElem? ht)) hreadable htext,
    hconcluded⟩

theorem Sound.accept (hs : s.Sound) {id : Json} (h : Json.Readable id) : (s.accept id).Sound where
  readable t ht := by
    rcases List.mem_append.1 ht with ht | ht
    · exact hs.readable t ht
    · obtain rfl := List.mem_singleton.1 ht
      exact h
  known p hp := by
    rcases List.mem_cons.1 hp with rfl | hp
    · exact ⟨⟨id, false, false⟩, List.getElem?_concat_length, rfl, rfl⟩
    · obtain ⟨t, ht, hknown⟩ := hs.known p (List.mem_filter.1 hp).1
      exact ⟨t, List.getElem?_append_left (List.getElem?_eq_some_iff.1 ht).1 ▸ ht, hknown⟩

/-- A ticket changes, and of the identifiers only those stay that stand for what is under way. -/
theorem Sound.modify (hs : s.Sound) {f : Ticket → Ticket} {known : List (String × Nat)}
    (hf : ∀ t, (f t).id = t.id) (hsub : ∀ p ∈ known, p ∈ s.known)
    (hwaits : ∀ p ∈ known, p.2 = n → ∀ t, s.tickets[n]? = some t →
      (f t).isConcluded = t.isConcluded) : Sound ⟨s.tickets.modify n f, known⟩ where
  readable t ht := by
    obtain ⟨m, hm⟩ := List.getElem?_of_mem ht
    dsimp only at hm
    rw [List.getElem?_modify] at hm
    obtain ⟨u, hu, rfl⟩ := Option.map_eq_some_iff.1 hm
    have hreadable := hs.readable u (List.mem_of_getElem? hu)
    split
    · rwa [hf]
    · exact hreadable
  known p hp := by
    obtain ⟨t, ht, htext, hconcluded⟩ := hs.known p (hsub p hp)
    refine ⟨if n = p.2 then f t else t, ?_, ?_⟩
    · dsimp only
      rw [List.getElem?_modify, ht]
      rfl
    · split
      · rename_i hn
        rw [hf, hwaits p hp hn.symm t (hn ▸ ht)]
        exact ⟨htext, hconcluded⟩
      · exact ⟨htext, hconcluded⟩

/-- Whatever a line says, the books stay sound. -/
theorem Sound.hears (hs : s.Sound) (h : Hears s line s' heard) : s'.Sound := by
  cases h with
  | accepted h => exact hs.accept ((readable_of_said? h.said).1 _ h.id)
  | withdrawn h hn => exact hs.modify (fun _ => rfl) (fun _ hp => hp) fun _ _ _ _ _ => rfl
  | _ => exact hs

theorem Sound.conclude (hs : s.Sound) {t : Ticket} (ht : s.tickets[n]? = some t)
    (outcome : Except Fault Json) : (s.conclude n outcome).1.Sound := by
  rw [conclude_of_ticket ht]
  refine hs.modify (fun _ => rfl) (fun _ hp => (List.mem_filter.1 hp).1) fun p hp hn => ?_
  -- The identifier of the request stands for nothing any more.
  obtain ⟨u, hu, htext, -⟩ := hs.known p (List.mem_filter.1 hp).1
  rw [hn, ht] at hu
  cases hu
  exact absurd htext.symm (by simpa using (List.mem_filter.1 hp).2)

end SqlGate.Session
