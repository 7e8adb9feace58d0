import SqlGate.Guardrail.Process
import SqlGate.Proofs.Guardrail.Course
import SqlGate.Proofs.Json.Records

/-!
# What a program must do to decide

A program decides by what it writes. Which outputs are decisions is said here without reference to
how they are read (`Response.IsOutput`): an object that has `accept` once and each of the three
texts at most once, with whatever else besides, or the same fields in their order as an array. An
exit is a decision if it is a success with such an output (`Exit.decision_eq_ok_iff`), and a program
decides if it exits so before its context is over (`decides_output_iff`).

The array is not what the protocol speaks of, and it is let through (`decides_bare_array`).
-/

namespace SqlGate

open Json Json.Typed

namespace Guardrail

namespace Response

/-- The texts of a decision under the names of their fields, in the order of these. -/
def texts (r : Response) : List (String × Option String) :=
  [("modified_query", r.modifiedQuery), ("modified_result", r.modifiedResult),
    ("error_message", r.errorMessage)]

/-- The names of the fields that hold texts. -/
def textNames : List String := ["modified_query", "modified_result", "error_message"]

/-- What stands under a name among some members, as often as the name does. -/
def under (name : String) (ms : List (String × Letters)) : List Letters :=
  (ms.filter fun m => m.1 = name).map Prod.snd

/-- The members of an object that is a decision: one says whether it accepts, at most one gives each
of the texts, which is a string or null, and the others hold any values, in whose strings there may
be bytes that belong to no character. -/
structure Says (ms : List (String × Letters)) (r : Response) : Prop where
  accept : under "accept" ms = [solidly (boolWord r.accept)]
  texts : ∀ f ∈ r.texts, (under f.1 ms = [] ∧ f.2 = none) ∨
    ∃ x, under f.1 ms = [solidly x] ∧ IsText x f.2
  others : ∀ m ∈ ms, m.1 ≠ "accept" → m.1 ∉ textNames → Parses .value (shown m.2)

/-- The letters that write a decision: an object of its members, or an array of its fields in their
order, which may stop after the first one or any later one. -/
inductive IsWritten : Letters → Response → Prop where
  | object {ms : List (String × Letters)} {ts : List Letters} {text : Letters} {r : Response}
    (hms : List.Forall₂ IsMember ms ts) (h : Separated true ts text) (hr : Says ms r) :
    IsWritten (some '\x7b' :: (text ++ [some '\x7d'])) r
  | array {xs : List (List Char)} {vs : List (Option String)} {n : Nat} {text : Letters}
    {r : Response} (hxs : List.Forall₂ IsText xs vs)
    (hr : r.texts.map Prod.snd = vs ++ List.replicate n none)
    (h : Separated true ((boolWord r.accept :: xs).map solidly) text) :
    IsWritten (some '[' :: (text ++ [some ']'])) r

/-- The outputs that are a decision: they write it, with nothing but blanks around. -/
def IsOutput (bytes : List UInt8) (r : Response) : Prop :=
  ∃ ws t ws', Blanks ws ∧ Blanks ws' ∧ IsWritten t r ∧
    Text.Utf8.letters bytes = solidly ws ++ (t ++ solidly ws')

/-! ## Fields -/

/-- What a text makes of a draft as one of the fields. -/
def Means (f : Typed.Field Draft) (d : Draft) (x : List Char) (d' : Draft) : Prop :=
  if f.name = "accept" then ∃ b, x = boolWord b ∧ d' = { d with accept := some b }
  else ∃ v, IsText x v ∧ d' = { d with texts := (f.name, v) :: d.texts }

theorem means_textField {name : String} (h : name ≠ "accept") (d : Draft) :
    Means (textField name) d =
      fun x d' => ∃ v, IsText x v ∧ d' = { d with texts := (name, v) :: d.texts } := by
  funext x d'
  exact if_neg h

theorem recognizes_textField {name : String} (h : name ≠ "accept") (d : Draft) :
    Recognizes ((textField name).read d) (Means (textField name) d) := by
  rw [means_textField h]
  exact recognizes_map recognizes_optional_string fun v => { d with texts := (name, v) :: d.texts }

theorem recognizes_field {f : Typed.Field Draft} (hf : f ∈ fields) (d : Draft) :
    Recognizes (f.read d) (Means f d) := by
  simp only [fields, List.mem_cons, List.not_mem_nil, or_false] at hf
  rcases hf with rfl | rfl | rfl | rfl
  · exact recognizes_map recognizes_bool fun b => { d with accept := some b }
  all_goals exact recognizes_textField (by decide) d

theorem firm_of_means {f : Typed.Field Draft} {d d' : Draft} {x : List Char} (h : Means f d x d') :
    Firm x := by
  unfold Means at h
  split_ifs at h
  · obtain ⟨b, rfl, -⟩ := h
    exact firm_boolWord b
  · obtain ⟨v, hv, -⟩ := h
    exact firm_of_isText hv

theorem find?_accept : fields.find? (·.name = "accept") = fields.head? := rfl

theorem find?_textField {name : String} (h : name ∈ textNames) :
    fields.find? (·.name = name) = some (textField name) := by
  simp only [textNames, List.mem_cons, List.not_mem_nil, or_false] at h
  rcases h with rfl | rfl | rfl <;> rfl

theorem find?_fields_eq_none {name : String} (ha : name ≠ "accept") (ht : name ∉ textNames) :
    fields.find? (·.name = name) = none := by
  simp only [textNames, List.mem_cons, List.not_mem_nil, or_false, not_or] at ht
  simp [fields, textField, ha.symm, Ne.symm ht.1, Ne.symm ht.2.1, Ne.symm ht.2.2]

theorem ne_accept_of_mem {name : String} (h : name ∈ textNames) : name ≠ "accept" :=
  fun he => absurd (he ▸ h) (by decide)

theorem missing?_fields_eq_none_iff (d : Draft) :
    missing? fields d = none ↔ ∃ b, d.accept = some b := by
  rw [← Option.isSome_iff_exists]
  cases h : d.accept.isSome <;> simp [missing?, fields, textField, h]

theorem under_cons (name k : String) (v : Letters) (ms : List (String × Letters)) :
    under name ((k, v) :: ms) = if k = name then v :: under name ms else under name ms := by
  unfold under
  rw [List.filter_cons]
  split_ifs with h <;> simp_all

/-! ## Members -/

section Members

variable {d d' : Draft} {k : String} {v : Letters} {ms : List (String × Letters)}

theorem fills_nil_iff : Fills Means fields d [] d' ↔ d' = d := by
  constructor
  · intro h
    cases h
    rfl
  · rintro rfl
    exact .done d'

theorem fills_accept_iff :
    Fills Means fields d (("accept", v) :: ms) d' ↔ d.accept = none ∧
      ∃ b, v = solidly (boolWord b) ∧ Fills Means fields { d with accept := some b } ms d' := by
  constructor
  · intro h
    cases h with
    | skipped hk => cases hk
    | field hf hset hx h =>
        cases hf
        obtain ⟨b, rfl, rfl⟩ := hx
        exact ⟨Option.not_isSome_iff_eq_none.1 (Bool.eq_false_iff.1 hset), b, rfl, h⟩
  · rintro ⟨hnone, b, rfl, h⟩
    exact .field find?_accept (Option.isSome_eq_false_iff.2 (Option.isNone_iff_eq_none.2 hnone))
      ⟨b, rfl, rfl⟩ h

theorem fills_text_iff (hk : k ∈ textNames) :
    Fills Means fields d ((k, v) :: ms) d' ↔ d.texts.lookup k = none ∧
      ∃ x w, v = solidly x ∧ IsText x w ∧
        Fills Means fields { d with texts := (k, w) :: d.texts } ms d' := by
  constructor
  · intro h
    cases h with
    | skipped hnone => exact nomatch (find?_textField hk).symm.trans hnone
    | field hf hset hx h =>
        obtain rfl := Option.some.inj ((find?_textField hk).symm.trans hf)
        rw [means_textField (ne_accept_of_mem hk)] at hx
        obtain ⟨w, hw, rfl⟩ := hx
        exact ⟨Option.not_isSome_iff_eq_none.1 (Bool.eq_false_iff.1 hset), _, w, rfl, hw, h⟩
  · rintro ⟨hnone, x, w, rfl, hw, h⟩
    refine .field (find?_textField hk)
      (Option.isSome_eq_false_iff.2 (Option.isNone_iff_eq_none.2 hnone)) ?_ h
    rw [means_textField (ne_accept_of_mem hk)]
    exact ⟨w, hw, rfl⟩

theorem fills_other_iff (ha : k ≠ "accept") (ht : k ∉ textNames) :
    Fills Means fields d ((k, v) :: ms) d' ↔
      Parses .value (shown v) ∧ Fills Means fields d ms d' := by
  have hnone := find?_fields_eq_none ha ht
  constructor
  · intro h
    cases h with
    | skipped _ hv h => exact ⟨hv, h⟩
    | field hf => exact nomatch hnone.symm.trans hf
  · rintro ⟨hv, h⟩
    exact .skipped hnone hv h

/-- What the values under a name make of what is known of a field, which is given once at most. -/
inductive Gets {γ : Type} (means : List Char → γ → Prop) :
    Option γ → List Letters → Option γ → Prop where
  | none (o : Option γ) : Gets means o [] o
  | once {x : List Char} {a : γ} (hx : means x a) : Gets means .none [solidly x] (some a)

theorem gets_nil_iff {γ : Type} {means : List Char → γ → Prop} {o o' : Option γ} :
    Gets means o [] o' ↔ o' = o := by
  constructor
  · intro h
    cases h
    rfl
  · rintro rfl
    exact .none o'

theorem gets_cons_iff {γ : Type} {means : List Char → γ → Prop} {o o' : Option γ}
    {vs : List Letters} :
    Gets means o (v :: vs) o' ↔
      o = .none ∧ ∃ x a, v = solidly x ∧ means x a ∧ Gets means (some a) vs o' := by
  constructor
  · intro h
    cases h with
    | once hx => exact ⟨rfl, _, _, rfl, hx, .none _⟩
  · rintro ⟨rfl, x, a, rfl, hx, h⟩
    cases h
    exact .once hx

theorem gets_none_iff {γ : Type} {means : List Char → γ → Prop} {o : Option γ}
    {vs : List Letters} :
    Gets means .none vs o ↔
      (vs = [] ∧ o = .none) ∨ ∃ x a, vs = [solidly x] ∧ means x a ∧ o = some a := by
  constructor
  · intro h
    cases h with
    | none => exact .inl ⟨rfl, rfl⟩
    | once hx => exact .inr ⟨_, _, rfl, hx, rfl⟩
  · rintro (⟨rfl, rfl⟩ | ⟨x, a, rfl, hx, rfl⟩)
    · exact .none _
    · exact .once hx

/-- The text fields get what stands under their names just if the field of a first member gets its
value and they get what stands under their names in the others. -/
theorem gets_texts_cons_iff {k : String} {v : Letters} {texts : List (String × Option String)}
    {o : String → Option (Option String)} (hk : k ∈ textNames) :
    (∀ name ∈ textNames, Gets IsText (texts.lookup name) (under name ((k, v) :: ms)) (o name)) ↔
      texts.lookup k = none ∧ ∃ x w, v = solidly x ∧ IsText x w ∧
        ∀ name ∈ textNames, Gets IsText (((k, w) :: texts).lookup name) (under name ms) (o name) := by
  constructor
  · intro h
    have hgets := h k hk
    rw [under_cons, if_pos rfl, gets_cons_iff] at hgets
    obtain ⟨hnone, x, w, rfl, hw, hgets⟩ := hgets
    refine ⟨hnone, x, w, rfl, hw, fun name hname => ?_⟩
    by_cases hne : name = k
    · subst hne
      rwa [List.lookup_cons_self]
    · have hkept := h name hname
      rw [under_cons, if_neg (Ne.symm hne)] at hkept
      rwa [List.lookup_cons, beq_eq_false_iff_ne.2 hne]
  · rintro ⟨hnone, x, w, rfl, hw, h⟩ name hname
    have hgets := h name hname
    rw [under_cons]
    split_ifs with hne
    · subst hne
      rw [List.lookup_cons_self] at hgets
      exact gets_cons_iff.2 ⟨hnone, x, w, rfl, hw, hgets⟩
    · rwa [List.lookup_cons, beq_eq_false_iff_ne.2 (Ne.symm hne)] at hgets

/-- Members fill a draft if each of its fields gets what stands under its name. -/
theorem exists_fills_iff {a : Option Bool} {o : String → Option (Option String)} :
    (∃ d', Fills Means fields d ms d' ∧ d'.accept = a ∧
        ∀ name ∈ textNames, d'.texts.lookup name = o name) ↔
      Gets (fun x b => x = boolWord b) d.accept (under "accept" ms) a ∧
        (∀ name ∈ textNames, Gets IsText (d.texts.lookup name) (under name ms) (o name)) ∧
        ∀ m ∈ ms, m.1 ≠ "accept" → m.1 ∉ textNames → Parses .value (shown m.2) := by
  induction ms generalizing d with
  | nil =>
      simp only [fills_nil_iff, exists_eq_left, under, List.filter_nil, List.map_nil, gets_nil_iff,
        List.not_mem_nil, IsEmpty.forall_iff, implies_true, and_true, @eq_comm _ a, @eq_comm _ (o _)]
  | cons m ms ih =>
      obtain ⟨k, v⟩ := m
      rw [List.forall_mem_cons]
      by_cases ha : k = "accept"
      · subst ha
        have hnames : ∀ name ∈ textNames,
            under name (("accept", v) :: ms) = under name ms := fun name h =>
          (under_cons name "accept" v ms).trans (if_neg (ne_accept_of_mem h).symm)
        rw [under_cons, if_pos rfl, gets_cons_iff]
        constructor
        · rintro ⟨d', h, hd'⟩
          obtain ⟨hnone, b, rfl, hfills⟩ := fills_accept_iff.1 h
          obtain ⟨haccept, htexts, hothers⟩ := ih.1 ⟨d', hfills, hd'⟩
          exact ⟨⟨hnone, _, b, rfl, rfl, haccept⟩, fun name h => hnames name h ▸ htexts name h,
            fun hne => absurd rfl hne, hothers⟩
        · rintro ⟨⟨hnone, x, b, rfl, rfl, haccept⟩, htexts, -, hothers⟩
          obtain ⟨d', h, hd'⟩ := (@ih { d with accept := some b }).2
            ⟨haccept, fun name h => hnames name h ▸ htexts name h, hothers⟩
          exact ⟨d', fills_accept_iff.2 ⟨hnone, b, rfl, h⟩, hd'⟩
      · rw [under_cons, if_neg ha]
        by_cases ht : k ∈ textNames
        · rw [gets_texts_cons_iff ht]
          constructor
          · rintro ⟨d', h, hd'⟩
            obtain ⟨hnone, x, w, rfl, hw, hfills⟩ := (fills_text_iff ht).1 h
            obtain ⟨haccept, htexts, hothers⟩ := ih.1 ⟨d', hfills, hd'⟩
            exact ⟨haccept, ⟨hnone, x, w, rfl, hw, htexts⟩, fun _ hne => absurd ht hne, hothers⟩
          · rintro ⟨haccept, ⟨hnone, x, w, rfl, hw, htexts⟩, -, hothers⟩
            obtain ⟨d', h, hd'⟩ :=
              (@ih { d with texts := (k, w) :: d.texts }).2 ⟨haccept, htexts, hothers⟩
            exact ⟨d', (fills_text_iff ht).2 ⟨hnone, x, w, rfl, hw, h⟩, hd'⟩
        · have hnames : ∀ name ∈ textNames, under name ((k, v) :: ms) = under name ms :=
            fun name h => (under_cons name k v ms).trans (if_neg fun he : k = name => ht (he ▸ h))
          constructor
          · rintro ⟨d', h, hd'⟩
            obtain ⟨hv, h⟩ := (fills_other_iff ha ht).1 h
            obtain ⟨haccept, htexts, hothers⟩ := ih.1 ⟨d', h, hd'⟩
            exact ⟨haccept, fun name h => hnames name h ▸ htexts name h, fun _ _ => hv, hothers⟩
          · rintro ⟨haccept, htexts, hv, hothers⟩
            obtain ⟨d', h, hd'⟩ := ih.2
              ⟨haccept, fun name h => hnames name h ▸ htexts name h, hothers⟩
            exact ⟨d', (fills_other_iff ha ht).2 ⟨hv ha ht, h⟩, hd'⟩

theorem lookup_texts {r : Response} {f : String × Option String} (h : f ∈ r.texts) :
    r.texts.lookup f.1 = some f.2 := by
  simp only [texts, List.mem_cons, List.not_mem_nil, or_false] at h
  rcases h with rfl | rfl | rfl <;> rfl

theorem ofDraft_eq_iff {r : Response} :
    ofDraft d = r ↔
      d.accept.getD false = r.accept ∧ ∀ f ∈ r.texts, (d.texts.lookup f.1).join = f.2 := by
  obtain ⟨accept, query, result, message⟩ := r
  simp [ofDraft, texts]

/-- Members fill a draft that becomes a decision if they say the decision. -/
theorem exists_fills_response_iff {r : Response} :
    (∃ d, Fills Means fields ⟨none, []⟩ ms d ∧ missing? fields d = none ∧ ofDraft d = r) ↔
      Says ms r := by
  constructor
  · rintro ⟨d, hfills, hmissing, hd⟩
    obtain ⟨b, hb⟩ := (missing?_fields_eq_none_iff d).1 hmissing
    obtain ⟨haccept, htexts⟩ := ofDraft_eq_iff.1 hd
    obtain ⟨hgets, hget, hothers⟩ := exists_fills_iff.1 ⟨d, hfills, rfl, fun _ _ => rfl⟩
    rw [hb] at haccept hgets
    refine ⟨?_, fun f hf => ?_, hothers⟩
    · obtain ⟨-, hnone⟩ | ⟨x, a, hunder, rfl, ha⟩ := gets_none_iff.1 hgets
      · cases hnone
      · obtain rfl := Option.some.inj ha
        rw [hunder, ← haccept, Option.getD_some]
    · have hvalue := htexts f hf
      obtain ⟨hunder, hnone⟩ | ⟨x, a, hunder, hx, ha⟩ :=
        gets_none_iff.1 (hget f.1 (List.mem_map_of_mem (f := Prod.fst) hf))
      · exact .inl ⟨hunder, by rw [← hvalue, hnone, Option.join_none]⟩
      · rw [ha, Option.join_some] at hvalue
        exact .inr ⟨x, hunder, hvalue ▸ hx⟩
  · rintro ⟨haccept, htexts, hothers⟩
    have hget : ∀ name ∈ textNames, ∃ v : Option (Option String),
        Gets IsText none (under name ms) v ∧ ∀ f ∈ r.texts, f.1 = name → v.join = f.2 := by
      intro name hname
      obtain ⟨f, hf, rfl⟩ := List.mem_map.1 (show name ∈ r.texts.map Prod.fst from hname)
      have hsame : ∀ f' ∈ r.texts, f'.1 = f.1 → f.2 = f'.2 := fun f' hf' he =>
        Option.some.inj ((lookup_texts hf).symm.trans (he ▸ lookup_texts hf'))
      rcases htexts f hf with ⟨hunder, hnone⟩ | ⟨x, hunder, hx⟩
      · exact ⟨none, hunder ▸ .none _, fun f' hf' he => hnone.symm.trans (hsame f' hf' he)⟩
      · exact ⟨some f.2, hunder ▸ .once hx, hsame⟩
    choose! o hgets hvalue using hget
    have haccepts : Gets (fun x b => x = boolWord b) none (under "accept" ms) (some r.accept) := by
      rw [haccept]
      exact .once rfl
    obtain ⟨d, hfills, hd, hlookup⟩ :=
      (exists_fills_iff (d := ⟨none, []⟩)).2 ⟨haccepts, hgets, hothers⟩
    refine ⟨d, hfills, (missing?_fields_eq_none_iff d).2 ⟨_, hd⟩, ofDraft_eq_iff.2 ⟨?_, ?_⟩⟩
    · rw [hd, Option.getD_some]
    · intro f hf
      have hname : f.1 ∈ textNames := List.mem_map_of_mem (f := Prod.fst) hf
      rw [hlookup f.1 hname]
      exact hvalue f.1 hname f hf rfl

end Members

/-! ## Items -/

/-- Texts fill a draft one after another, and no more of them than there are names. -/
theorem lists_textFields_iff {names : List String} (h : ∀ name ∈ names, name ≠ "accept")
    {d d' : Draft} {xs : List (List Char)} :
    Lists Means (names.map textField) d xs d' ↔ ∃ vs, List.Forall₂ IsText xs vs ∧
      vs.length ≤ names.length ∧
      d' = { d with texts := (names.zip vs).reverse ++ d.texts } := by
  induction names generalizing d xs with
  | nil =>
      constructor
      · intro hlists
        cases hlists
        exact ⟨[], .nil, Nat.le_refl 0, rfl⟩
      · rintro ⟨vs, hxs, hlength, rfl⟩
        obtain rfl := List.length_eq_zero_iff.1 (Nat.le_zero.1 hlength)
        cases hxs
        exact .done _ (List.forall_mem_nil _)
  | cons name names ih =>
      obtain ⟨hname, hnames⟩ := List.forall_mem_cons.1 h
      constructor
      · intro hlists
        cases hlists with
        | done => exact ⟨[], .nil, Nat.zero_le _, rfl⟩
        | next hx hlists =>
            rw [means_textField hname] at hx
            obtain ⟨v, hv, rfl⟩ := hx
            obtain ⟨vs, hxs, hlength, rfl⟩ := (ih hnames).1 hlists
            exact ⟨v :: vs, .cons hv hxs, Nat.succ_le_succ hlength, by simp⟩
      · rintro ⟨vs, hxs, hlength, rfl⟩
        cases hxs with
        | nil =>
            have hoptional : ∀ f ∈ (name :: names).map textField, f.optional = true := by
              intro f hf
              obtain ⟨name', -, rfl⟩ := List.mem_map.1 hf
              rfl
            exact .done _ hoptional
        | @cons x v xs vs hv hxs =>
            have hmeans :
                Means (textField name) d x { d with texts := (name, v) :: d.texts } := by
              rw [means_textField hname]
              exact ⟨v, hv, rfl⟩
            exact .next hmeans ((ih hnames).2
              ⟨vs, hxs, Nat.le_of_succ_le_succ hlength, by simp⟩)

/-- Items list a draft that becomes a decision if they are its fields in their order. -/
theorem exists_lists_response_iff {xs : List (List Char)} {r : Response} :
    (∃ d, Lists Means fields ⟨none, []⟩ xs d ∧ ofDraft d = r) ↔
      ∃ ys vs n, xs = boolWord r.accept :: ys ∧ List.Forall₂ IsText ys vs ∧
        r.texts.map Prod.snd = vs ++ List.replicate n none := by
  have hnames : ∀ name ∈ textNames, name ≠ "accept" := fun _ => ne_accept_of_mem
  constructor
  · rintro ⟨d, hlists, rfl⟩
    cases hlists with
    | done _ h => exact nomatch h _ List.mem_cons_self
    | next hx hlists =>
        obtain ⟨b, rfl, rfl⟩ := hx
        obtain ⟨vs, hxs, hlength, rfl⟩ := (lists_textFields_iff hnames).1 hlists
        refine ⟨_, vs, 3 - vs.length, rfl, hxs, ?_⟩
        match vs, hlength with
        | [], _ | [_], _ | [_, _], _ | [_, _, _], _ => rfl
  · obtain ⟨accept, query, result, message⟩ := r
    rintro ⟨ys, vs, n, rfl, hys, hr⟩
    have hn : vs.length + n = 3 := by
      rw [← List.length_replicate (n := n) (a := (none : Option String)), ← List.length_append, ← hr]
      rfl
    have hlength : vs.length ≤ textNames.length := Nat.le.intro hn
    obtain rfl : n = 3 - vs.length := Nat.eq_sub_of_add_eq' hn
    refine ⟨_, .next ⟨accept, rfl, rfl⟩
      ((lists_textFields_iff hnames).2 ⟨vs, hys, hlength, rfl⟩), ofDraft_eq_iff.2 ⟨rfl, ?_⟩⟩
    match vs, hlength, hr with
    | [], _, hr | [_], _, hr | [_, _], _, hr | [_, _, _], _, hr =>
      simp only [texts, List.map_cons, List.map_nil] at hr
      cases hr
      simp [texts, textNames, List.lookup_cons]

/-! ## Whole texts -/

theorem exists_writes_iff {t : Letters} {r : Response} :
    (∃ d, Writes Means fields ⟨none, []⟩ t d ∧ ofDraft d = r) ↔ IsWritten t r := by
  constructor
  · rintro ⟨d, ht, hd⟩
    cases ht with
    | object hms hsep hfills hmissing =>
        exact .object hms hsep (exists_fills_response_iff.1 ⟨d, hfills, hmissing, hd⟩)
    | array hsep hlists =>
        obtain ⟨ys, vs, n, rfl, hys, hr⟩ := exists_lists_response_iff.1 ⟨d, hlists, hd⟩
        exact .array hys hr hsep
  · intro ht
    cases ht with
    | object hms hsep hr =>
        obtain ⟨d, hfills, hmissing, hd⟩ := exists_fills_response_iff.2 hr
        exact ⟨d, .object hms hsep hfills hmissing, hd⟩
    | array hys hr hsep =>
        obtain ⟨d, hlists, hd⟩ := exists_lists_response_iff.2 ⟨_, _, _, rfl, hys, hr⟩
        exact ⟨d, .array hsep hlists, hd⟩

theorem ofBytes_eq_ok_iff {bytes : List UInt8} {r : Response} :
    ofBytes bytes = .ok r ↔ IsOutput bytes r := by
  unfold ofBytes ofLetters IsOutput
  rw [bind_eq_ok_iff]
  constructor
  · rintro ⟨d, hread, hd⟩
    obtain ⟨ws, t, ws', hws, hws', ht, hls⟩ :=
      (ofLetters_eq_ok_iff (fun f hf d => recognizes_field hf d) firm_of_means _).1 hread
    exact ⟨ws, t, ws', hws, hws', exists_writes_iff.1 ⟨d, ht, Except.ok.inj hd⟩, hls⟩
  · rintro ⟨ws, t, ws', hws, hws', ht, hls⟩
    obtain ⟨d, hwrites, rfl⟩ := exists_writes_iff.2 ht
    exact ⟨d, (ofLetters_eq_ok_iff (fun f hf d => recognizes_field hf d) firm_of_means _).2
      ⟨ws, t, ws', hws, hws', hwrites, hls⟩, rfl⟩

end Response

/-! ## Programs -/

theorem Exit.decision_eq_ok_iff {e : Exit} {r : Response} :
    e.decision = .ok r ↔ e.status = .code 0 ∧ Response.IsOutput e.output r := by
  unfold decision
  rw [← Response.ofBytes_eq_ok_iff]
  cases e.status with
  | signal n => exact ⟨nofun, fun h => nomatch h.1⟩
  | code n =>
      cases n with
      | zero => simp [ExitStatus.isSuccess, mapError_eq_ok_iff]
      | succ n => exact ⟨nofun, fun h => nomatch h.1⟩

variable {programs : Programs} {name command payload : String} {args : List String} {c : Context}
  {t t' : Instant}

/-- A program decides if it exits with a decision before its context is over. -/
theorem decides_program_iff {r : Response} :
    Decides c (ofProgram programs name command args) payload t (.ok r) t' ↔
      ∃ delay e, programs command args payload = .runs (some delay) e ∧ t' = t + delay ∧
        c.status t' = none ∧ e.decision = .ok r := by
  constructor
  · generalize hd : Except.ok r = d
    intro h
    cases h with
    | atOnce => cases hd
    | late => cases hd
    | @inTime delay decision _ hfate hawait =>
        obtain ⟨hlive, hdue, -⟩ := (c.await_eq_done_iff _ _ _).1 hawait
        obtain ⟨delay, rfl, rfl⟩ := Option.map_eq_some_iff.1 hdue
        change (programs command args payload).fate = _ at hfate
        cases hlaunch : programs command args payload with
        | notStarted why =>
            rw [hlaunch] at hfate
            cases hfate
        | runs delay' e =>
            rw [hlaunch] at hfate
            cases hfate
            exact ⟨delay, e, rfl, rfl, Context.status_of_await_done hawait,
              mapError_eq_ok_iff.1 hd.symm⟩
  · rintro ⟨delay, e, hlaunch, rfl, hlive, hdecision⟩
    have hfate : (ofProgram programs name command args).fate payload =
        .decides (some delay) (.ok r) := by
      rw [← hdecision]
      exact congrArg Launch.fate hlaunch
    exact .inTime hfate ((c.await_eq_done_iff _ _ _).2
      ⟨c.status_eq_none_of_le (Nat.le_add_right t delay) hlive, rfl,
        (c.status_eq_none_iff _).1 hlive⟩)

/-- A program that exits sooner or later is decided on, also in a context that never ends. -/
theorem exists_decides_program (name : String) (c : Context) (t : Instant) {delay : Nat} {e : Exit}
    (h : programs command args payload = .runs (some delay) e) :
    ∃ d t', Decides c (ofProgram programs name command args) payload t d t' := by
  have hfate : (ofProgram programs name command args).fate payload =
      .decides (some delay) e.decision := congrArg Launch.fate h
  cases hawait : c.await none t (some (t + delay)) with
  | none => exact nomatch (Context.await_eq_none_iff.1 hawait).2
  | some x =>
      obtain ⟨t', ending⟩ := x
      cases ending with
      | none => exact ⟨_, _, .inTime hfate hawait⟩
      | some why => exact ⟨_, _, .late hfate hawait⟩

/-- A program decides if and only if it exits successfully before its context is over and its output
is a decision, and then its decision is the one of the output. So a program that exits at all is
decided on, and it accepts only if it exits so and its output says that it accepts; what else it may
do comes out as a failure or as a decision that does not accept. -/
theorem decides_output_iff (programs : Programs) (name command : String) (args : List String)
    (payload : String) (c : Context) (t : Instant) :
    (∀ r t', Decides c (ofProgram programs name command args) payload t (.ok r) t' ↔
      ∃ delay e, programs command args payload = .runs (some delay) e ∧ t' = t + delay ∧
        c.status t' = none ∧ e.status = .code 0 ∧ Response.IsOutput e.output r) ∧
    ∀ delay e, programs command args payload = .runs (some delay) e →
      ∃ d t', Decides c (ofProgram programs name command args) payload t d t' ∧
        ((∃ r, d = .ok r ∧ r.accept = true) ↔
          c.status (t + delay) = none ∧ e.status = .code 0 ∧
            ∃ r, Response.IsOutput e.output r ∧ r.accept = true) := by
  have hdecides : ∀ r t', Decides c (ofProgram programs name command args) payload t (.ok r) t' ↔
      ∃ delay e, programs command args payload = .runs (some delay) e ∧ t' = t + delay ∧
        c.status t' = none ∧ e.status = .code 0 ∧ Response.IsOutput e.output r := by
    intro r t'
    simp only [decides_program_iff, Exit.decision_eq_ok_iff]
  refine ⟨hdecides, fun delay e hlaunch => ?_⟩
  obtain ⟨d, t', hd⟩ := exists_decides_program name c t hlaunch
  refine ⟨d, t', hd, ?_⟩
  constructor
  · rintro ⟨r, rfl, haccept⟩
    obtain ⟨delay', e', hlaunch', rfl, hlive, hstatus, houtput⟩ := (hdecides r t').1 hd
    cases hlaunch.symm.trans hlaunch'
    exact ⟨hlive, hstatus, r, houtput, haccept⟩
  · rintro ⟨hlive, hstatus, r, houtput, haccept⟩
    have hok := (hdecides r _).2 ⟨delay, e, hlaunch, rfl, hlive, hstatus, houtput⟩
    exact ⟨r, (hd.unique hok).1, haccept⟩

/-- What programs do if all of them write a text of ASCII characters and exit. -/
def writing (text : String) : Programs := fun _ _ _ =>
  .runs (some 3) ⟨.code 0, text.toList.map fun x => .ofNat x.toNat, []⟩

/-- An object with blanks around it, a null in it, an escape in a key and a member of its own. -/
def spacious : String :=
  " \x7b\"note\":[1e9], \"error_message\":null, \"\\u0061ccept\": true\x7d\n"

theorem decides_output_iff_spacious :
    Decides ⟨some 4, none⟩ (ofProgram (writing spacious) "judge" "judge" []) "SELECT 1" 0
        (.ok ⟨true, none, none, none⟩) 3 ∧
      Response.IsOutput (spacious.toList.map fun x => .ofNat x.toNat) ⟨true, none, none, none⟩ := by
  have hdecides : Decides ⟨some 4, none⟩ (ofProgram (writing spacious) "judge" "judge" [])
      "SELECT 1" 0 (.ok ⟨true, none, none, none⟩) 3 :=
    decides_program_iff.2 ⟨3, _, rfl, rfl, rfl, by decide +kernel⟩
  obtain ⟨delay, e, hlaunch, -, -, -, houtput⟩ :=
    ((decides_output_iff (writing spacious) "judge" "judge" [] "SELECT 1" ⟨some 4, none⟩ 0).1 _ 3).1
      hdecides
  cases hlaunch
  exact ⟨hdecides, houtput⟩

/-- A program that writes `true` between brackets, and so no object, accepts. -/
theorem decides_bare_array :
    Decides .unbounded (ofProgram (writing "[true]") "bare" "bare" []) "SELECT 1" 0
        (.ok ⟨true, none, none, none⟩) 3 ∧
      ¬ ∀ (programs : Programs) (name command : String) (args : List String) (payload : String)
        (c : Context) (t t' : Instant) (r : Response),
        Decides c (ofProgram programs name command args) payload t (.ok r) t' → r.accept = true →
          ∃ delay e ws ls, programs command args payload = .runs (some delay) e ∧ Blanks ws ∧
            Text.Utf8.letters e.output = solidly ws ++ some '\x7b' :: ls := by
  have hdecides : Decides .unbounded (ofProgram (writing "[true]") "bare" "bare" []) "SELECT 1" 0
      (.ok ⟨true, none, none, none⟩) 3 :=
    decides_program_iff.2 ⟨3, _, rfl, rfl, rfl, by decide +kernel⟩
  refine ⟨hdecides, fun h => ?_⟩
  obtain ⟨delay, e, ws, ls, hlaunch, hws, hletters⟩ := h _ _ _ _ _ _ _ _ _ hdecides rfl
  cases hlaunch
  -- The output begins with a bracket, which is neither a blank nor a brace.
  have hfirst : some (some '[') = (solidly ws ++ some '\x7b' :: ls).head? :=
    congrArg List.head? hletters
  cases ws with
  | nil => cases hfirst
  | cons w ws =>
      obtain rfl : '[' = w := Option.some.inj (Option.some.inj hfirst)
      exact absurd (hws '[' List.mem_cons_self) (by decide)

end Guardrail

end SqlGate
