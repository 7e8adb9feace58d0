import SqlGate.Config
import SqlGate.Proofs.Except

/-!
# What a valid configuration promises

`Config.Valid` is what validation is about, field by field and without an order: every number that
must not be zero is not, every pattern is one, and every span that a call may need is there.
Validation lets a configuration pass exactly if it is valid (`validate_eq_ok_iff`).
-/

namespace SqlGate.Config

variable {α β : Type} {field pattern : String}

/-! ## One field, and the items of a list -/

theorem compile_eq_ok_iff {p : Pattern} :
    compile field pattern = .ok p ↔ Pattern.ofString? pattern = some p := by
  unfold compile
  cases Pattern.ofString? pattern with
  | none => exact ⟨nofun, nofun⟩
  | some q => simp

theorem exists_compile_iff : (∃ p, compile field pattern = .ok p) ↔ Pattern.isValid pattern := by
  simp only [compile_eq_ok_iff, Pattern.isValid, Option.isSome_iff_exists]

theorem wellFormed_eq_ok_iff : wellFormed field pattern = .ok () ↔ Pattern.isValid pattern := by
  unfold wellFormed
  rw [bind_const_eq_ok_iff, exists_compile_iff]
  exact and_iff_left rfl

theorem nonzero_eq_ok_iff {isZero : Bool} : nonzero isZero field = .ok () ↔ isZero = false := by
  cases isZero with
  | false => exact ⟨fun _ => rfl, fun _ => rfl⟩
  | true => exact ⟨nofun, nofun⟩

/-- If it does not depend on the index whether a step succeeds, all steps of a list do if each item
has what a step needs. -/
theorem exists_forItems_iff {f : Nat → α → Except Fault β} {P : α → Prop}
    (hf : ∀ i x, (∃ y, f i x = .ok y) ↔ P x) (xs : List α) :
    (∃ ys, forItems f xs = .ok ys) ↔ ∀ x ∈ xs, P x := by
  unfold forItems
  rw [exists_mapM_eq_ok_iff]
  constructor
  · intro h x hx
    obtain ⟨i, hi⟩ := List.getElem?_of_mem hx
    exact (hf i x).1 (h (x, i) (List.mk_mem_zipIdx_iff_getElem?.2 hi))
  · intro h ⟨x, i⟩ hxi
    exact (hf i x).2 (h x (List.mem_of_getElem? (List.mk_mem_zipIdx_iff_getElem?.1 hxi)))

theorem exists_of_mem_forItems {f : Nat → α → Except Fault β} {xs : List α} {ys : List β} {y : β}
    (h : forItems f xs = .ok ys) (hy : y ∈ ys) : ∃ i, ∃ x ∈ xs, f i x = .ok y := by
  obtain ⟨⟨x, i⟩, hxi, hfx⟩ := exists_of_mem_mapM h hy
  exact ⟨i, x, List.mem_of_getElem? (List.mk_mem_zipIdx_iff_getElem?.1 hxi), hfx⟩

theorem map_eq_of_forItems {γ : Type} {f : Nat → α → Except Fault β} {g : β → γ} {k : α → γ}
    (hf : ∀ i x y, f i x = .ok y → g y = k x) {xs : List α} {ys : List β}
    (h : forItems f xs = .ok ys) : ys.map g = xs.map k := by
  have hmap : ys.map g = xs.zipIdx.map (k ∘ Prod.fst) :=
    map_eq_of_mapM (fun (x : α × Nat) => hf x.2 x.1) h
  rw [hmap, ← List.map_map, List.zipIdx_map_fst]

theorem patterns_iff (list : String) (pattern : α → String) (xs : List α) :
    (∃ us, forItems (fun i x => wellFormed (itemField list i "pattern") (pattern x)) xs = .ok us) ↔
      ∀ x ∈ xs, Pattern.isValid (pattern x) :=
  exists_forItems_iff (fun _ _ => by rw [exists_unit_eq_ok_iff, wellFormed_eq_ok_iff]) xs

theorem timeoutRules_iff (rs : List TimeoutRule) :
    (∃ us, forItems (fun i (r : TimeoutRule) => do
      wellFormed (itemField "timeouts.rules" i "pattern") r.pattern
      nonzero r.timeout.isZero (itemField "timeouts.rules" i "timeout")) rs = .ok us) ↔
      ∀ r ∈ rs, Pattern.isValid r.pattern ∧ r.timeout.isZero = false := by
  refine exists_forItems_iff (fun _ _ => ?_) rs
  rw [exists_unit_eq_ok_iff, bind_const_eq_ok_iff, exists_unit_eq_ok_iff, wellFormed_eq_ok_iff,
    nonzero_eq_ok_iff]

/-! ## The whole configuration -/

/-- A program that can be run, and the span that it has. -/
structure GuardrailEntry.Valid (defaultTimeout : Option Duration) (e : GuardrailEntry) : Prop where
  pattern : Pattern.isValid e.pattern
  command : ¬ e.command.toList.all Text.isBlank
  timeout : ∃ d, (e.timeout <|> defaultTimeout) = some d ∧ d.isZero = false

theorem GuardrailEntry.validate_eq_ok_iff {e : GuardrailEntry} {defaultTimeout : Option Duration}
    {list : String} {i : Nat} :
    e.validate defaultTimeout list i = .ok () ↔ e.Valid defaultTimeout := by
  unfold GuardrailEntry.validate
  rw [bind_const_eq_ok_iff, exists_unit_eq_ok_iff, wellFormed_eq_ok_iff]
  by_cases hcommand : e.command.toList.all Text.isBlank
  · rw [if_pos hcommand]
    exact ⟨fun h => (nomatch h.2), fun h => absurd hcommand h.command⟩
  · rw [if_neg hcommand]
    cases hd : e.timeout <|> defaultTimeout with
    | none =>
        refine ⟨fun h => (nomatch h.2), fun h => ?_⟩
        obtain ⟨d, hd', -⟩ := h.timeout
        cases hd.symm.trans hd'
    | some d =>
        refine ⟨fun h => ⟨h.1, hcommand, d, hd, nonzero_eq_ok_iff.1 h.2⟩, fun h => ?_⟩
        obtain ⟨d', hd', hzero⟩ := h.timeout
        cases hd.symm.trans hd'
        exact ⟨h.pattern, nonzero_eq_ok_iff.2 hzero⟩

theorem guardrailEntries_iff (list : String) (defaultTimeout : Option Duration)
    (es : List GuardrailEntry) :
    (∃ us, forItems (fun i (e : GuardrailEntry) => e.validate defaultTimeout list i) es = .ok us) ↔
      ∀ e ∈ es, e.Valid defaultTimeout :=
  exists_forItems_iff
    (fun _ _ => by rw [exists_unit_eq_ok_iff, GuardrailEntry.validate_eq_ok_iff]) es

structure Valid (c : Config) : Prop where
  connections : c.database.maxConnections ≠ 0
  capacity : c.admissionCapacity ≠ 0
  resultBytes : c.limits.maxResultBytes ≠ 0
  connectTimeout : c.database.connectTimeout.isZero = false
  timeout : ∃ d, c.timeouts.default = some d ∧ d.isZero = false
  rules : ∀ r ∈ c.timeouts.rules, Pattern.isValid r.pattern ∧ r.timeout.isZero = false
  guardrailTimeout : c.guardrails.defaultTimeout.any Duration.isZero = false
  before : ∀ e ∈ c.guardrails.before, e.Valid c.guardrails.defaultTimeout
  after : ∀ e ∈ c.guardrails.after, e.Valid c.guardrails.defaultTimeout
  sanitize : ∀ r ∈ c.sanitize, Pattern.isValid r.pattern
  diagnostics : ∀ r ∈ c.diagnostics, Pattern.isValid r.pattern

theorem validate_eq_ok_iff {c : Config} : c.validate = .ok () ↔ c.Valid := by
  unfold validate
  cases hd : c.timeouts.default with
  | none =>
      simp only [bind_const_eq_ok_iff]
      refine ⟨fun h => (nomatch h.2.2.2.2.1), fun h => ?_⟩
      obtain ⟨d, hd', -⟩ := h.timeout
      cases hd.symm.trans hd'
  | some d =>
      simp only [bind_const_eq_ok_iff, exists_unit_eq_ok_iff, nonzero_eq_ok_iff, timeoutRules_iff,
        guardrailEntries_iff, patterns_iff, decide_eq_false_iff_not]
      constructor
      · rintro ⟨hn, hc, hb, ht, hdz, hr, hg, hbefore, hafter, hs, hdiag, -⟩
        exact ⟨hn, hc, hb, ht, ⟨d, hd, hdz⟩, hr, hg, hbefore, hafter, hs, hdiag⟩
      · intro h
        obtain ⟨d', hd', hdz⟩ := h.timeout
        cases hd.symm.trans hd'
        exact ⟨h.connections, h.capacity, h.resultBytes, h.connectTimeout, hdz, h.rules,
          h.guardrailTimeout, h.before, h.after, h.sanitize, h.diagnostics, rfl⟩

end SqlGate.Config
