import SqlGate.Proofs.Guardrail.Course

/-!
# The turns of the guardrails of a phase

Every guardrail of a list has its turn, and what becomes of it depends on all the turns before. They
leave the phase standing at a text, the last that one of them put in the place of another, or ended
by the first of them that failed or rejected. A guardrail is shown the text at which the phase
stands when its turn comes, if its pattern matches that text, and nothing otherwise; where the phase
stands after the last turn is what comes of it (`run_consultAll_turns`).
-/

namespace SqlGate

namespace Guardrail

/-- What became of the turn of a guardrail. -/
inductive Turn where
  /-- It was not asked. -/
  | spared
  | shown (asked : Instant) (payload : String) (decision : Except Fault Response)
      (decided : Instant)
  /-- It was to be asked, and the clock did not count its limit. -/
  | uncountable

/-! ## What a turn leaves -/

/-- The failure or rejection that a turn came to. -/
def refusal? : Entry × Turn → Option Fault
  | (_, .shown _ _ (.error why) _) => some why
  | (e, .shown _ _ (.ok r) _) =>
    if r.accept then none
    else
      let message := r.errorMessage.filter fun s => !s.isEmpty
      some ⟨e.guardrail.name, .rejected (message.getD (unexplained e.guardrail.name))⟩
  | _ => none

/-- The text that a turn put in the place of the one that was shown. -/
def replacement? (phase : Phase) : Entry × Turn → Option String
  | (_, .shown _ _ (.ok r) _) => r.replacement phase
  | _ => none

def event? : Entry × Turn → Option Work.Entry
  | (e, .shown asked payload _ _) => some ⟨asked, .consulted e.guardrail.name payload⟩
  | _ => none

def decidedAt? : Entry × Turn → Option Instant
  | (_, .shown _ _ _ decided) => some decided
  | _ => none

def isUncountable : Entry × Turn → Bool
  | (_, .uncountable) => true
  | _ => false

/-- Where a phase stands after some turns: at a text, or at the first refusal. It stands nowhere if
it broke off. -/
def standing (phase : Phase) (text : String) (past : List (Entry × Turn)) :
    Option (Except Fault String) :=
  if past.any isUncountable then none
  else
    match past.findSome? refusal? with
    | some why => some (.error why)
    | none => some (.ok ((past.filterMap (replacement? phase)).getLast?.getD text))

/-- When the last of some turns was over. -/
def clock (start : Instant) (past : List (Entry × Turn)) : Instant :=
  (past.filterMap decidedAt?).getLast?.getD start

/-- What is due to a guardrail whose turn comes where the phase stands. -/
structure Due (c : Context) (current : Option (Except Fault String)) (now : Instant) (e : Entry)
    (turn : Turn) : Prop where
  shown_iff : ∀ payload, (∃ decision decided, turn = .shown now payload decision decided) ↔
    current = some (.ok payload) ∧ e.pattern.isMatch payload = true ∧
      (Clock.after? now e.timeout).isSome
  decides : ∀ asked payload decision decided, turn = .shown asked payload decision decided →
    asked = now ∧ ∃ limit, Clock.after? now e.timeout = some limit ∧
      Decides (c.within (some limit)) e.guardrail payload now decision decided
  uncountable_iff : turn = .uncountable ↔
    ∃ payload, current = some (.ok payload) ∧ e.pattern.isMatch payload = true ∧
      Clock.after? now e.timeout = none

variable {c : Context} {phase : Phase} {text : String} {t : Instant}

theorem Due.spared {current : Option (Except Fault String)} (now : Instant) (e : Entry)
    (h : ∀ payload, current = some (.ok payload) → e.pattern.isMatch payload = false) :
    Due c current now e .spared where
  shown_iff := by
    intro payload
    refine ⟨fun ⟨_, _, hc⟩ => (nomatch hc), fun ⟨hc, hm, _⟩ => ?_⟩
    exact nomatch hm.symm.trans (h payload hc)
  decides := fun _ _ _ _ hc => nomatch hc
  uncountable_iff := by
    refine ⟨fun hc => (nomatch hc), fun ⟨payload, hc, hm, _⟩ => ?_⟩
    exact nomatch hm.symm.trans (h payload hc)

theorem Due.uncountable {e : Entry} (hm : e.pattern.isMatch text = true)
    (hl : Clock.after? t e.timeout = none) : Due c (some (.ok text)) t e .uncountable where
  shown_iff := by
    intro payload
    refine ⟨fun ⟨_, _, hc⟩ => (nomatch hc), fun ⟨_, _, hs⟩ => ?_⟩
    simp [hl] at hs
  decides := fun _ _ _ _ hc => nomatch hc
  uncountable_iff := ⟨fun _ => ⟨text, rfl, hm, hl⟩, fun _ => rfl⟩

theorem Due.shown {e : Entry} {limit t' : Instant} {d : Except Fault Response}
    (hm : e.pattern.isMatch text = true) (hl : Clock.after? t e.timeout = some limit)
    (hd : Decides (c.within (some limit)) e.guardrail text t d t') :
    Due c (some (.ok text)) t e (.shown t text d t') where
  shown_iff := by
    intro payload
    constructor
    · rintro ⟨_, _, hc⟩
      cases hc
      exact ⟨rfl, hm, by simp [hl]⟩
    · rintro ⟨hc, -, -⟩
      cases hc
      exact ⟨d, t', rfl⟩
  decides := by
    intro asked payload decision decided hc
    cases hc
    exact ⟨rfl, limit, hl, hd⟩
  uncountable_iff := by
    refine ⟨fun hc => (nomatch hc), fun ⟨_, _, _, hn⟩ => ?_⟩
    exact nomatch hl.symm.trans hn

/-! ## Turn by turn -/

@[simp] theorem standing_nil (phase : Phase) (text : String) :
    standing phase text [] = some (.ok text) := rfl

@[simp] theorem clock_nil (start : Instant) : clock start [] = start := rfl

@[simp] theorem standing_spared (phase : Phase) (text : String) (e : Entry)
    (past : List (Entry × Turn)) :
    standing phase text ((e, .spared) :: past) = standing phase text past := rfl

@[simp] theorem clock_spared (start : Instant) (e : Entry) (past : List (Entry × Turn)) :
    clock start ((e, .spared) :: past) = clock start past := rfl

@[simp] theorem standing_uncountable (phase : Phase) (text : String) (e : Entry)
    (past : List (Entry × Turn)) : standing phase text ((e, .uncountable) :: past) = none := rfl

theorem getLast?_cons_getD {α : Type} (x y : α) (xs : List α) :
    (x :: xs).getLast?.getD y = xs.getLast?.getD x := by
  rw [List.getLast?_cons]
  rfl

/-- A guardrail that accepts leaves the phase at the text of its replacement. -/
theorem standing_accepted (phase : Phase) (text payload : String) (e : Entry) (t t' : Instant)
    {r : Response} (past : List (Entry × Turn)) (ha : r.accept = true) :
    standing phase text ((e, .shown t payload (.ok r) t') :: past) =
      standing phase ((r.replacement phase).getD text) past := by
  have hrefusal : refusal? (e, .shown t payload (.ok r) t') = none := by
    simp [refusal?, ha]
  unfold standing
  rw [List.any_cons, List.findSome?_cons, hrefusal, List.filterMap_cons]
  cases hr : r.replacement phase with
  | none =>
      rw [replacement?, hr]
      rfl
  | some text' =>
      rw [replacement?, hr]
      dsimp only
      rw [getLast?_cons_getD]
      rfl

theorem clock_shown (start t t' : Instant) (payload : String) (e : Entry)
    (d : Except Fault Response) (past : List (Entry × Turn)) :
    clock start ((e, .shown t payload d t') :: past) = clock t' past := by
  unfold clock
  rw [List.filterMap_cons, decidedAt?]
  dsimp only
  rw [getLast?_cons_getD]

/-- What does not let a text pass is a refusal. -/
theorem refusal?_of_bind {e : Entry} {d : Except Fault Response} {why : Fault} (t t' : Instant)
    (payload : String)
    (h : d.bind (fun r => r.apply phase e.guardrail.name text) = .error why) :
    refusal? (e, .shown t payload d t') = some why := by
  cases d with
  | error why' =>
      cases h
      rfl
  | ok r =>
      change r.apply phase e.guardrail.name text = .error why at h
      unfold Response.apply at h
      cases ha : r.accept with
      | true => simp [ha] at h
      | false =>
          rw [ha, if_neg Bool.false_ne_true] at h
          cases h
          simp [refusal?, ha]

/-- Turns of guardrails that were not asked leave a phase where it stands. -/
theorem standing_of_refusal {x : Entry × Turn} {why : Fault} {past : List (Entry × Turn)}
    (h : refusal? x = some why) (hp : ∀ y ∈ past, y.2 = .spared) :
    standing phase text (x :: past) = some (.error why) := by
  have hx : isUncountable x = false := by
    obtain ⟨e, turn⟩ := x
    cases turn with
    | uncountable => cases h
    | _ => rfl
  have hpast : past.any isUncountable = false := by
    rw [List.any_eq_false]
    rintro ⟨e, turn⟩ hy
    obtain rfl : turn = .spared := hp _ hy
    simp [isUncountable]
  unfold standing
  rw [List.any_cons, hx, hpast, List.findSome?_cons, h]
  rfl

theorem clock_of_spared (start : Instant) {past : List (Entry × Turn)}
    (hp : ∀ y ∈ past, y.2 = .spared) : clock start past = start := by
  have hnone : past.filterMap decidedAt? = [] := by
    rw [List.filterMap_eq_nil_iff]
    rintro ⟨e, turn⟩ hy
    obtain rfl : turn = .spared := hp _ hy
    rfl
  rw [clock, hnone]
  rfl

theorem filterMap_event?_of_spared {past : List (Entry × Turn)} (hp : ∀ y ∈ past, y.2 = .spared) :
    past.filterMap event? = [] := by
  rw [List.filterMap_eq_nil_iff]
  rintro ⟨e, turn⟩ hy
  obtain rfl : turn = .spared := hp _ hy
  rfl

/-- The turns of guardrails none of which is asked. -/
def sparing (es : List Entry) : List (Entry × Turn) := es.map fun e => (e, .spared)

theorem eq_spared_of_mem_sparing {es : List Entry} : ∀ y ∈ sparing es, y.2 = .spared := by
  intro y hy
  obtain ⟨e, -, rfl⟩ := List.mem_map.1 hy
  rfl

theorem map_fst_sparing (es : List Entry) : (sparing es).map (·.1) = es := by
  rw [sparing, List.map_map]
  exact List.map_id es

/-- Every guardrail of a list got what was due to it when its turn came. -/
def AllDue (c : Context) (phase : Phase) (text : String) (t : Instant)
    (turns : List (Entry × Turn)) : Prop :=
  ∀ i e turn, turns[i]? = some (e, turn) →
    Due c (standing phase text (turns.take i)) (clock t (turns.take i)) e turn

theorem AllDue.nil : AllDue c phase text t [] := by
  intro i e turn h
  simp at h

theorem AllDue.cons {e : Entry} {turn : Turn} {text' : String} {t' : Instant}
    {turns : List (Entry × Turn)} (hfirst : Due c (some (.ok text)) t e turn)
    (hstanding : ∀ past, standing phase text ((e, turn) :: past) = standing phase text' past)
    (hclock : ∀ past, clock t ((e, turn) :: past) = clock t' past)
    (hrest : AllDue c phase text' t' turns) : AllDue c phase text t ((e, turn) :: turns) := by
  intro i e' turn' h
  cases i with
  | zero =>
      cases h
      exact hfirst
  | succ i =>
      rw [List.take_succ_cons, hstanding, hclock]
      exact hrest i e' turn' h

/-- Where a phase has ended nothing more is due. -/
theorem AllDue.ended {x : Entry × Turn} (es : List Entry)
    (hfirst : Due c (some (.ok text)) t x.1 x.2)
    (hover : ∀ past, (∀ y ∈ past, y.2 = .spared) →
      ∀ payload, standing phase text (x :: past) ≠ some (.ok payload)) :
    AllDue c phase text t (x :: sparing es) := by
  intro i e' turn' h
  cases i with
  | zero =>
      cases h
      exact hfirst
  | succ i =>
      rw [List.take_succ_cons]
      obtain rfl : turn' = .spared := eq_spared_of_mem_sparing _ (List.mem_of_getElem? h)
      refine .spared _ _ fun payload hc => absurd hc (hover _ (fun y hy => ?_) payload)
      exact eq_spared_of_mem_sparing y (List.mem_of_mem_take hy)

/-- The course of a phase turn by turn. -/
theorem Course.exists_turns {es : List Entry} {seen : List Work.Entry}
    {v : Option (Except Fault String)} {t' : Instant} (h : Course c phase es text t seen v t') :
    ∃ turns : List (Entry × Turn), turns.map (·.1) = es ∧ AllDue c phase text t turns ∧
      turns.filterMap event? = seen ∧ standing phase text turns = v ∧ clock t turns = t' := by
  induction h with
  | done text t => exact ⟨[], rfl, .nil, rfl, rfl, rfl⟩
  | @skipped e es text t t' seen v hm rest ih =>
      obtain ⟨turns, hes, hdue, hseen, hv, ht⟩ := ih
      have hspared : Due c (some (.ok text)) t e .spared := .spared t e fun payload hc => by
        cases hc
        exact hm
      refine ⟨(e, .spared) :: turns, congrArg (e :: ·) hes, ?_, hseen, hv, ht⟩
      exact .cons hspared (standing_spared phase text e) (clock_spared t e) hdue
  | @uncountable e es text t hm hl =>
      have hspared : ∀ y ∈ sparing es, y.2 = .spared := eq_spared_of_mem_sparing
      refine ⟨(e, .uncountable) :: sparing es, ?_, .ended es (.uncountable hm hl) ?_, ?_, rfl, ?_⟩
      · exact congrArg (e :: ·) (map_fst_sparing es)
      · intro past _ payload
        simp
      · change (sparing es).filterMap event? = []
        exact filterMap_event?_of_spared hspared
      · change clock t (sparing es) = t
        exact clock_of_spared t hspared
  | @stopped e es text t t' limit decision why hm hl hd hr =>
      have hspared : ∀ y ∈ sparing es, y.2 = .spared := eq_spared_of_mem_sparing
      have hrefusal : refusal? (e, .shown t text decision t') = some why :=
        refusal?_of_bind t t' text hr
      refine ⟨(e, .shown t text decision t') :: sparing es, ?_, .ended es (.shown hm hl hd) ?_, ?_,
        standing_of_refusal hrefusal hspared, ?_⟩
      · exact congrArg (e :: ·) (map_fst_sparing es)
      · intro past hp payload
        rw [standing_of_refusal hrefusal hp]
        simp
      · exact congrArg (_ :: ·) (filterMap_event?_of_spared hspared)
      · rw [clock_shown]
        exact clock_of_spared t' hspared
  | @accepted e es text t t₁ t' limit r seen v hm hl hd ha rest ih =>
      obtain ⟨turns, hes, hdue, hseen, hv, ht⟩ := ih
      refine ⟨(e, .shown t text (.ok r) t₁) :: turns, congrArg (e :: ·) hes, ?_,
        congrArg (_ :: ·) hseen, ?_, ?_⟩
      · exact .cons (.shown hm hl hd) (fun past => standing_accepted phase text text e t t₁ past ha)
          (fun past => clock_shown t t t₁ text e _ past) hdue
      · rw [standing_accepted phase text text e t t₁ turns ha, hv]
      · rw [clock_shown, ht]

/-! ## What comes of all turns -/

/-- What is not asked once the phase has ended. -/
theorem AllDue.spared {turns : List (Entry × Turn)} (h : AllDue c phase text t turns) {i : Nat}
    {x : Entry × Turn} (hx : turns[i]? = some x)
    (hover : ∀ payload, standing phase text (turns.take i) ≠ some (.ok payload)) :
    x.2 = .spared := by
  obtain ⟨e, turn⟩ := x
  have hdue := h i e turn hx
  cases turn with
  | spared => rfl
  | uncountable =>
      obtain ⟨payload, hc, -⟩ := hdue.uncountable_iff.1 rfl
      exact absurd hc (hover payload)
  | shown asked payload decision decided =>
      obtain ⟨rfl, -⟩ := hdue.decides asked payload decision decided rfl
      exact absurd ((hdue.shown_iff payload).1 ⟨decision, decided, rfl⟩).1 (hover payload)

end Guardrail

end SqlGate
