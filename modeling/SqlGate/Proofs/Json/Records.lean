import SqlGate.Proofs.Json.Spelling

/-!
# The language of a record

Which texts a record is read from is said by `Writes`: an object of its members, in which each field
is given once at most and members of other names hold any values, or an array of its fields in their
order. Whole letters are read as a record if they write it, with blanks around it, and not otherwise
(`ofLetters_eq_ok_iff`), where only the languages of the fields need be known.

Letters may have gaps. They can only be in strings that are skipped, since anything else in which
there is one is not what the readers look for, or is looked through for gaps (`Firm`).
-/

namespace SqlGate.Json

variable {c c' : Cursor} {rest s : List Char} {first more : Bool} {place : Place}

/-! ## Between brackets and braces -/

theorem separates_of_cons {ws : List Char} (h : Blanks ws) {ws' : List Char} (h' : Blanks ws') :
    Separates false (ws ++ ',' :: ws') :=
  ⟨ws, ws', h, h', rfl⟩

theorem exists_of_moreMembers (h : moreMembers first c = .ok (more, c')) :
    (more = false ∧ c'.peek? = some '\x7d' ∧ ∃ ws, Blanks ws ∧ c.rest = ws ++ c'.rest) ∨
      (more = true ∧ c'.peek? = some '"' ∧ ∃ s, Separates first s ∧ c.rest = s ++ c'.rest) := by
  obtain ⟨ws, hws, hrest⟩ := c.exists_blanks
  unfold moreMembers at h
  dsimp only at h
  generalize c.skipBlanks = c₁ at h hrest
  split at h
  · cases h
  · next x hx =>
      split_ifs at h with hend hfirst hquote hcomma
      · cases h
        exact .inl ⟨rfl, hend ▸ hx, ws, hws, hrest⟩
      · cases h
        subst hfirst
        exact .inr ⟨rfl, hquote ▸ hx, ws, hws, hrest⟩
      · obtain ⟨ws', hws', hrest'⟩ := c₁.advance.exists_blanks
        split at h
        · cases h
        · next y hy =>
            split_ifs at h with hquote
            cases h
            obtain rfl := Bool.eq_false_iff.2 hfirst
            refine .inr ⟨rfl, hquote ▸ hy, _, separates_of_cons hws hws', ?_⟩
            rw [hrest, Cursor.rest_of_peek? hx, hcomma, hrest']
            simp

theorem exists_moreMembers_end {ws : List Char} (h : Blanks ws) (first : Bool) (rest : List Char)
    (place : Place) : ∃ place', moreMembers first ⟨ws ++ '\x7d' :: rest, place⟩ =
      .ok (false, ⟨'\x7d' :: rest, place'⟩) := by
  obtain ⟨place', hskip⟩ := Cursor.exists_skipBlanks h (x := '\x7d') rfl rest place
  refine ⟨place', ?_⟩
  unfold moreMembers
  rw [hskip]
  rfl

theorem exists_moreMembers (h : Separates first s) (rest : List Char) (place : Place) :
    ∃ place', moreMembers first ⟨s ++ '"' :: rest, place⟩ = .ok (true, ⟨'"' :: rest, place'⟩) := by
  cases first with
  | true =>
      obtain ⟨place', hskip⟩ := Cursor.exists_skipBlanks (show Blanks s from h) (x := '"') rfl rest
        place
      refine ⟨place', ?_⟩
      unfold moreMembers
      rw [hskip]
      rfl
  | false =>
      obtain ⟨ws, ws', hws, hws', rfl⟩ := h
      obtain ⟨place₁, hskip⟩ := Cursor.exists_skipBlanks hws (x := ',') rfl (ws' ++ '"' :: rest) place
      obtain ⟨place₂, hskip'⟩ := Cursor.exists_skipBlanks hws' (x := '"') rfl rest
        (Cursor.after place₁ ',')
      refine ⟨place₂, ?_⟩
      unfold moreMembers
      rw [List.append_assoc, List.cons_append, hskip]
      dsimp only [Cursor.peek?_cons, Cursor.advance_cons]
      rw [hskip']
      rfl

theorem exists_of_moreItems (h : moreItems first c = .ok (more, c')) :
    (more = false ∧ c'.peek? = some ']' ∧ ∃ ws, Blanks ws ∧ c.rest = ws ++ c'.rest) ∨
      (more = true ∧ ∃ s, Separates first s ∧ c.rest = s ++ c'.rest) := by
  obtain ⟨ws, hws, hrest⟩ := c.exists_blanks
  unfold moreItems at h
  dsimp only at h
  generalize c.skipBlanks = c₁ at h hrest
  split at h
  · cases h
  · next x hx =>
      split_ifs at h with hend hfirst hcomma
      · cases h
        exact .inl ⟨rfl, hend ▸ hx, ws, hws, hrest⟩
      · cases h
        subst hfirst
        exact .inr ⟨rfl, ws, hws, hrest⟩
      · obtain ⟨ws', hws', hrest'⟩ := c₁.advance.exists_blanks
        split at h
        · cases h
        · next y hy =>
            split_ifs at h with hclosed
            cases h
            obtain rfl := Bool.eq_false_iff.2 hfirst
            refine .inr ⟨rfl, _, separates_of_cons hws hws', ?_⟩
            rw [hrest, Cursor.rest_of_peek? hx, hcomma, hrest']
            simp

theorem exists_moreItems_end {ws : List Char} (h : Blanks ws) (first : Bool) (rest : List Char)
    (place : Place) : ∃ place', moreItems first ⟨ws ++ ']' :: rest, place⟩ =
      .ok (false, ⟨']' :: rest, place'⟩) := by
  obtain ⟨place', hskip⟩ := Cursor.exists_skipBlanks h (x := ']') rfl rest place
  refine ⟨place', ?_⟩
  unfold moreItems
  rw [hskip]
  rfl

theorem exists_moreItems (h : Separates first s) {y : Char} (hblank : Cursor.isBlank y = false)
    (hend : y ≠ ']') (rest : List Char) (place : Place) :
    ∃ place', moreItems first ⟨s ++ y :: rest, place⟩ = .ok (true, ⟨y :: rest, place'⟩) := by
  cases first with
  | true =>
      obtain ⟨place', hskip⟩ := Cursor.exists_skipBlanks (show Blanks s from h) hblank rest place
      refine ⟨place', ?_⟩
      unfold moreItems
      rw [hskip]
      exact if_neg hend
  | false =>
      obtain ⟨ws, ws', hws, hws', rfl⟩ := h
      obtain ⟨place₁, hskip⟩ := Cursor.exists_skipBlanks hws (x := ',') rfl (ws' ++ y :: rest) place
      obtain ⟨place₂, hskip'⟩ := Cursor.exists_skipBlanks hws' hblank rest (Cursor.after place₁ ',')
      refine ⟨place₂, ?_⟩
      unfold moreItems
      rw [List.append_assoc, List.cons_append, hskip]
      dsimp only [Cursor.peek?_cons, Cursor.advance_cons]
      rw [hskip']
      exact if_neg hend

theorem exists_of_endList (h : endList c = .ok c') :
    ∃ ws, Blanks ws ∧ c.rest = ws ++ ']' :: c'.rest := by
  obtain ⟨ws, hws, hrest⟩ := c.exists_blanks
  unfold endList at h
  dsimp only at h
  split at h
  · cases h
  · next x hx =>
      split_ifs at h with hend
      cases h
      exact ⟨ws, hws, by rw [hrest, Cursor.rest_of_peek? hx, hend]⟩

theorem exists_endList {ws : List Char} (h : Blanks ws) (rest : List Char) (place : Place) :
    ∃ place', endList ⟨ws ++ ']' :: rest, place⟩ = .ok ⟨rest, place'⟩ := by
  obtain ⟨place', hskip⟩ := Cursor.exists_skipBlanks h (x := ']') rfl rest place
  unfold endList
  rw [hskip]
  exact ⟨_, rfl⟩

theorem endList_of_peek? (h : c.peek? = some ']') : endList c = .ok c.advance := by
  obtain ⟨cs, place⟩ := c
  obtain ⟨rest, rfl⟩ : ∃ rest, cs = ']' :: rest := ⟨_, Cursor.rest_of_peek? h⟩
  rfl

theorem endObject_of_peek? (h : c.peek? = some '\x7d') : endObject c = .ok c.advance := by
  obtain ⟨cs, place⟩ := c
  obtain ⟨rest, rfl⟩ : ∃ rest, cs = '\x7d' :: rest := ⟨_, Cursor.rest_of_peek? h⟩
  rfl

theorem exists_of_atEnd (h : atEnd c = .ok ()) : Blanks c.rest := by
  obtain ⟨ws, hws, hrest⟩ := c.exists_blanks
  unfold atEnd at h
  dsimp only at h
  split at h
  · next hnone =>
      rw [hrest, List.head?_eq_none_iff.1 hnone, List.append_nil]
      exact hws
  · cases h

theorem atEnd_of_blanks (h : Blanks rest) (place : Place) : atEnd ⟨rest, place⟩ = .ok () := by
  have hpeek : (Cursor.skipBlanks ⟨rest, place⟩).peek? = none :=
    List.head?_eq_none_iff.2 (List.dropWhile_eq_nil_iff.2 h)
  unfold atEnd
  dsimp only
  rw [hpeek]

theorem Separates.append (h : Separates first s) {ws : List Char} (hws : Blanks ws) :
    Separates first (s ++ ws) := by
  cases first with
  | true => exact Blanks.append h hws
  | false =>
      obtain ⟨ws₁, ws₂, hws₁, hws₂, rfl⟩ := h
      exact ⟨ws₁, ws₂ ++ ws, hws₁, hws₂.append hws, by simp⟩

/-! ## Letters -/

theorem Blanks.not_mem {ws : List Char} (h : Blanks ws) : '?' ∉ ws :=
  fun hmem => absurd (h _ hmem) (by decide)

theorem Separates.not_mem (h : Separates first s) : '?' ∉ s := by
  cases first with
  | true => exact Blanks.not_mem h
  | false =>
      obtain ⟨ws, ws', hws, hws', rfl⟩ := h
      simpa using ⟨hws.not_mem, hws'.not_mem⟩

namespace Typed

variable {α : Type} {ls l lw l' : Letters} {ws x : List Char} {a : α}

/-- Letters as they are read. -/
def shown (l : Letters) : List Char := l.map (·.getD '?')

/-- Letters of which none is missing. -/
def solidly (cs : List Char) : Letters := cs.map some

theorem shown_append (l l' : Letters) : shown (l ++ l') = shown l ++ shown l' := List.map_append

theorem shown_solidly (cs : List Char) : shown (solidly cs) = cs := by
  simp [shown, solidly]

theorem solidly_append (cs cs' : List Char) : solidly (cs ++ cs') = solidly cs ++ solidly cs' :=
  List.map_append

theorem not_mem_solidly (cs : List Char) : none ∉ solidly cs := by
  simp [solidly]

/-- Letters that show as some characters are these, if no gap may hide in them. -/
theorem eq_solidly (h : none ∉ l) : l = solidly (shown l) := by
  induction l with
  | nil => rfl
  | cons o l ih =>
      cases o with
      | none => exact absurd List.mem_cons_self h
      | some y => exact congrArg (some y :: ·) (ih fun hmem => h (List.mem_cons_of_mem _ hmem))

theorem eq_solidly_of_not_mem (h : '?' ∉ shown l) : l = solidly (shown l) :=
  eq_solidly fun hmem => h (List.mem_map.2 ⟨none, hmem, rfl⟩)

/-- A cursor before the last ones of some letters. -/
structure At (ls l : Letters) (c : Cursor) : Prop where
  suffix : l <:+ ls
  rest : c.rest = shown l

/-- What a reader passes over are letters. -/
theorem At.exists_append (h : At ls l c) {w : List Char} (c' : Cursor)
    (hrest : c.rest = w ++ c'.rest) : ∃ lw l', l = lw ++ l' ∧ shown lw = w ∧ At ls l' c' := by
  obtain ⟨lw, l', rfl, hw, hl'⟩ := List.map_eq_append_iff.1 (h.rest.symm.trans hrest)
  exact ⟨lw, l', rfl, hw, (List.suffix_append lw l').trans h.suffix, hl'.symm⟩

/-- Characters among which a gap would show are letters. -/
theorem At.exists_solidly (h : At ls l c) {w : List Char} (hw : '?' ∉ w) (c' : Cursor)
    (hrest : c.rest = w ++ c'.rest) : ∃ l', l = solidly w ++ l' ∧ At ls l' c' := by
  obtain ⟨lw, l', rfl, rfl, hat⟩ := h.exists_append c' hrest
  exact ⟨l', by rw [← eq_solidly_of_not_mem hw], hat⟩

theorem At.after (h : At ls (l ++ l') c) (place : Place) : At ls l' ⟨shown l', place⟩ :=
  ⟨(List.suffix_append l l').trans h.suffix, rfl⟩

theorem between_of_at (h : At ls (lw ++ l') c) (h' : At ls l' c') : between ls c c' = lw := by
  obtain ⟨before, rfl⟩ := h.suffix
  have hc : c.rest.length = (lw ++ l').length := by rw [h.rest, shown, List.length_map]
  have hc' : c'.rest.length = l'.length := by rw [h'.rest, shown, List.length_map]
  have hdrop : (before ++ (lw ++ l')).length - (lw ++ l').length = before.length := by
    simp only [List.length_append]
    omega
  have htake : (lw ++ l').length - l'.length = lw.length := by
    rw [List.length_append]
    omega
  rw [between, hc, hc', hdrop, htake, List.drop_left, List.take_left]

/-- A text in which a gap would be found: a string, or a word without the character that gaps show
as. -/
inductive Firm : List Char → Prop where
  | string {x : List Char} {s : String} (h : IsString x s) : Firm x
  | word {y : Char} {ys : List Char} (hblank : Cursor.isBlank y = false) (hquote : y ≠ '"')
    (hend : y ≠ ']') (hgap : '?' ∉ y :: ys) : Firm (y :: ys)

theorem Firm.exists_cons (h : Firm x) :
    ∃ y ys, x = y :: ys ∧ Cursor.isBlank y = false ∧ y ≠ ']' := by
  cases h with
  | string h =>
      obtain ⟨text, -, rfl⟩ := h
      exact ⟨_, _, rfl, rfl, by decide⟩
  | word hblank _ hend => exact ⟨_, _, rfl, hblank, hend⟩

theorem rest_skipBlanks (hws : Blanks ws) (hx : Firm x) (hrest : c.rest = ws ++ (x ++ rest)) :
    c.skipBlanks.rest = x ++ rest := by
  obtain ⟨y, ys, rfl, hblank, -⟩ := hx.exists_cons
  obtain ⟨place', hskip⟩ := Cursor.exists_skipBlanks hws hblank (ys ++ rest) c.place
  rw [List.cons_append] at hrest
  rw [← hrest] at hskip
  exact congrArg Cursor.rest hskip

theorem eq_ok_of_solid {read : Read α} {r : α × Cursor} (h : solid ls read c = .ok r) :
    read c = .ok r := by
  unfold solid at h
  dsimp only at h
  split at h
  · split at h
    · split_ifs at h
      exact h
    · exact h
  · exact h

/-- Where a string follows the blanks, gaps are looked for up to its end. -/
theorem solid_of_quote {read : Read α} {s : String} {final : Cursor}
    (hquote : c.skipBlanks.peek? = some '"')
    (hfinal : stringRest c.skipBlanks.advance = .ok (s, final)) :
    solid ls read c = if (between ls c.skipBlanks final).contains none then
      .error (final.fail .invalidCodePoint) else read c := by
  unfold solid
  dsimp only
  rw [if_pos hquote, hfinal]

theorem exists_final {s : String} (h : IsString x s) (hskip : c.skipBlanks.rest = x ++ rest) :
    ∃ final, c.skipBlanks.peek? = some '"' ∧ stringRest c.skipBlanks.advance = .ok (s, final) ∧
      final.rest = rest := by
  obtain ⟨text, htext, rfl⟩ := h
  generalize c.skipBlanks = c₁ at hskip ⊢
  obtain ⟨cs, place⟩ := c₁
  obtain rfl : cs = '"' :: (text ++ ['"']) ++ rest := hskip
  obtain ⟨place', hread⟩ := exists_stringRest_of_spells htext rest (Cursor.after place '"')
  refine ⟨⟨rest, place'⟩, rfl, ?_, rfl⟩
  rw [List.cons_append, List.append_assoc]
  exact hread

/-- What is read where gaps are looked for has none. -/
theorem exists_of_solid {read : Read α} {means : List Char → α → Prop}
    (hread : Recognizes read means) (hfirm : ∀ {x a}, means x a → Firm x) (hat : At ls l c)
    (h : solid ls read c = .ok (a, c')) :
    ∃ ws x l', Blanks ws ∧ means x a ∧ l = solidly (ws ++ x) ++ l' ∧ At ls l' c' := by
  obtain ⟨ws, x, hws, hx, hrest⟩ := hread.sound (eq_ok_of_solid h)
  have hskip := rest_skipBlanks hws (hfirm hx) hrest
  obtain ⟨l₁, rfl, hat₁⟩ := hat.exists_solidly hws.not_mem c.skipBlanks (by rw [hrest, hskip])
  obtain ⟨lx, l', rfl, hshown, hat'⟩ := hat₁.exists_append c' hskip
  suffices lx = solidly x from ⟨ws, x, l', hws, hx, by rw [solidly_append, this, List.append_assoc], hat'⟩
  cases hfirm hx with
  | word _ _ _ hgap => exact hshown ▸ eq_solidly_of_not_mem (hshown ▸ hgap)
  | @string _ s hstring =>
      obtain ⟨final, hquote, hfinal, hrest'⟩ := exists_final hstring hskip
      rw [solid_of_quote hquote hfinal, between_of_at hat₁ ⟨hat'.suffix, hrest'.trans hat'.rest⟩] at h
      split_ifs at h with hgap
      rw [List.contains_iff_mem] at hgap
      exact hshown ▸ eq_solidly hgap

theorem exists_solid {read : Read α} {means : List Char → α → Prop}
    (hread : Recognizes read means) (hfirm : ∀ {x a}, means x a → Firm x) (hws : Blanks ws)
    (hx : means x a) (hat : At ls (solidly (ws ++ x) ++ l') c) :
    ∃ place', solid ls read c = .ok (a, ⟨shown l', place'⟩) := by
  have hrest : c.rest = ws ++ (x ++ shown l') := by
    rw [hat.rest, shown_append, shown_solidly, List.append_assoc]
  obtain ⟨place', hok⟩ := hread.complete hws hx (shown l') c.place
  rw [← hrest] at hok
  refine ⟨place', ?_⟩
  have hskip := rest_skipBlanks hws (hfirm hx) hrest
  cases hfirm hx with
  | @word y ys _ hquote =>
      have hpeek : c.skipBlanks.peek? ≠ some '"' := by
        rw [Cursor.peek?, hskip]
        simpa using hquote
      unfold solid
      dsimp only
      rw [if_neg hpeek]
      exact hok
  | @string _ s hstring =>
      obtain ⟨final, hquote, hfinal, hrest'⟩ := exists_final hstring hskip
      rw [solidly_append, List.append_assoc] at hat
      have hat₁ : At ls (solidly x ++ l') c.skipBlanks :=
        ⟨(hat.after place').suffix, by rw [hskip, shown_append, shown_solidly]⟩
      have hat₂ : At ls l' final := ⟨(hat₁.after place').suffix, hrest'⟩
      rw [solid_of_quote hquote hfinal, between_of_at hat₁ hat₂, if_neg]
      · exact hok
      · rw [List.contains_iff_mem]
        exact not_mem_solidly x

/-! ## The language of a record -/

/-- Texts with commas between them and blanks around them, `first` if none stands before them. -/
inductive Separated : Bool → List Letters → Letters → Prop where
  | done {first : Bool} {ws : List Char} (h : Blanks ws) : Separated first [] (solidly ws)
  | next {first : Bool} {s : List Char} {t : Letters} {ts : List Letters} {text : Letters}
    (hs : Separates first s) (h : Separated false ts text) :
    Separated first (t :: ts) (solidly s ++ (t ++ text))

/-- A member, its key spelled in some way. -/
def IsMember (m : String × Letters) (t : Letters) : Prop :=
  ∃ k, Labels (fun text => Spells text m.1.toList) k ∧ t = solidly k ++ m.2

section Record

variable {σ : Type} (means : Field σ → σ → List Char → σ → Prop) (fields : List (Field σ))

/-- What members make of a record, `means` saying what texts make of it as fields. -/
inductive Fills : σ → List (String × Letters) → σ → Prop where
  | done (r : σ) : Fills r [] r
  | skipped {r r' : σ} {k : String} {v : Letters} {ms : List (String × Letters)}
    (hk : fields.find? (·.name = k) = none) (hv : Parses .value (shown v)) (h : Fills r ms r') :
    Fills r ((k, v) :: ms) r'
  | field {r r₁ r' : σ} {f : Field σ} {k : String} {x : List Char} {ms : List (String × Letters)}
    (hf : fields.find? (·.name = k) = some f) (hset : f.isSet r = false) (hx : means f r x r₁)
    (h : Fills r₁ ms r') : Fills r ((k, solidly x) :: ms) r'

/-- What texts make of a record, one after another as its fields. The fields that none is left for
may be lacking. -/
inductive Lists : List (Field σ) → σ → List (List Char) → σ → Prop where
  | done {fs : List (Field σ)} (r : σ) (h : ∀ f ∈ fs, f.optional = true) : Lists fs r [] r
  | next {f : Field σ} {fs : List (Field σ)} {r r₁ r' : σ} {x : List Char} {xs : List (List Char)}
    (hx : means f r x r₁) (h : Lists fs r₁ xs r') : Lists (f :: fs) r (x :: xs) r'

/-- The texts that a record is written as. -/
inductive Writes (empty : σ) : Letters → σ → Prop where
  | object {ms : List (String × Letters)} {ts : List Letters} {text : Letters} {r : σ}
    (hms : List.Forall₂ IsMember ms ts) (h : Separated true ts text)
    (hr : Fills means fields empty ms r) (hmissing : missing? fields r = none) :
    Writes empty (some '\x7b' :: (text ++ [some '\x7d'])) r
  | array {xs : List (List Char)} {text : Letters} {r : σ}
    (h : Separated true (xs.map solidly) text) (hr : Lists means fields empty xs r) :
    Writes empty (some '[' :: (text ++ [some ']'])) r

variable {means fields}

theorem lift_eq_ok_iff {x : Except Fault α} {v : α} : Trouble.lift x = .ok v ↔ x = .ok v := by
  cases x with
  | error why => simp [Trouble.lift]
  | ok v' => simp [Trouble.lift]

theorem firm_string {s : String} (h : IsString x s) : Firm x := .string h

theorem firm_boolWord (b : Bool) : Firm (boolWord b) := by
  cases b <;> exact .word (by decide) (by decide) (by decide) (by decide)

theorem firm_of_isText {v : Option String} (h : IsText x v) : Firm x := by
  cases v with
  | none =>
      obtain rfl : x = ['n', 'u', 'l', 'l'] := h
      exact .word (by decide) (by decide) (by decide) (by decide)
  | some s => exact .string h

theorem solid_key (h : c.peek? = some '"') :
    solid ls (fun c => stringRest c.advance) c = solid ls string c := by
  obtain ⟨cs, place⟩ := c
  cases cs with
  | nil => cases h
  | cons y cs =>
      cases h
      rfl

theorem exists_of_key {k : String} {c₁ : Cursor} (hat : At ls l c) (hquote : c.peek? = some '"')
    (h : solid ls (fun c => stringRest c.advance) c = .ok (k, c₁)) (hcolon : colon c₁ = .ok c') :
    ∃ text ws l', Spells text k.toList ∧ Blanks ws ∧
      l = solidly ('"' :: (text ++ '"' :: (ws ++ [':']))) ++ l' ∧ At ls l' c' := by
  rw [solid_key hquote] at h
  obtain ⟨ws, x, l₁, hws, ⟨text, htext, rfl⟩, rfl, hat₁⟩ :=
    exists_of_solid recognizes_string firm_string hat h
  obtain rfl : ws = [] := by
    cases ws with
    | nil => rfl
    | cons w ws =>
        have hw := hws w List.mem_cons_self
        rw [Cursor.peek?, hat.rest] at hquote
        obtain rfl : w = '"' := Option.some.inj hquote
        cases hw
  obtain ⟨ws₁, hws₁, hrest⟩ := exists_of_colon hcolon
  obtain ⟨l₂, rfl, hat₂⟩ := hat₁.exists_solidly (w := ws₁ ++ [':']) (by simpa using hws₁.not_mem) c'
    (by rw [hrest]; simp)
  refine ⟨text, ws₁, l₂, htext, hws₁, ?_, hat₂⟩
  simp [solidly]

/-- What the members of a record are. -/
theorem exists_of_fieldMembers
    (hread : ∀ f ∈ fields, ∀ r, Recognizes (f.read r) (means f r))
    (hfirm : ∀ {f r x r'}, means f r x r' → Firm x) {fuel : Nat} {r r' : σ} (hat : At ls l c)
    (h : fieldMembers ls fields fuel first r c = .ok (r', c')) :
    ∃ ms ts text l', l = text ++ l' ∧ At ls l' c' ∧ c'.peek? = some '\x7d' ∧
      List.Forall₂ IsMember ms ts ∧ Separated first ts text ∧ Fills means fields r ms r' ∧
      missing? fields r' = none := by
  induction fuel generalizing l c first r with
  | zero => cases h
  | succ fuel ih =>
      unfold fieldMembers at h
      obtain ⟨⟨more, c₁⟩, hmore, h⟩ := bind_eq_ok_iff.1 h
      rcases exists_of_moreMembers (lift_eq_ok_iff.1 hmore) with
        ⟨rfl, hend, ws, hws, hrest⟩ | ⟨rfl, hquote, s, hs, hrest⟩
      · dsimp only at h
        rw [if_neg Bool.false_ne_true] at h
        split at h
        · cases h
        · next hmissing =>
            cases h
            obtain ⟨l', rfl, hat'⟩ := hat.exists_solidly hws.not_mem _ hrest
            exact ⟨[], [], _, l', rfl, hat', hend, .nil, .done hws, .done _, hmissing⟩
      · obtain ⟨l₁, rfl, hat₁⟩ := hat.exists_solidly hs.not_mem _ hrest
        dsimp only at h
        rw [if_pos rfl] at h
        obtain ⟨⟨k, c₂⟩, hkey, h⟩ := bind_eq_ok_iff.1 h
        dsimp only at h
        split at h
        · next f hf =>
            split_ifs at h with hset
            obtain ⟨c₃, hcolon, h⟩ := bind_eq_ok_iff.1 h
            obtain ⟨⟨r₁, c₄⟩, hvalue, h⟩ := bind_eq_ok_iff.1 h
            obtain ⟨text, ws, l₃, htext, hws, rfl, hat₃⟩ :=
              exists_of_key hat₁ hquote (lift_eq_ok_iff.1 hkey) (lift_eq_ok_iff.1 hcolon)
            obtain ⟨ws', x, l₄, hws', hx, rfl, hat₄⟩ := exists_of_solid
              (hread f (List.mem_of_find?_eq_some hf) _) hfirm hat₃ (lift_eq_ok_iff.1 hvalue)
            obtain ⟨ms, ts, text', l', rfl, hat', hend, hms, hsep, hfills, hmissing⟩ := ih hat₄ h
            refine ⟨(k, solidly x) :: ms, _ :: ts, _, l', ?_, hat', hend,
              .cons ⟨_, ⟨text, ws, ws', htext, hws, hws', rfl⟩, rfl⟩ hms, .next hs hsep,
              .field hf (Bool.eq_false_iff.2 hset) hx hfills, hmissing⟩
            simp [solidly]
        · next hf =>
            obtain ⟨c₃, hcolon, h⟩ := bind_eq_ok_iff.1 h
            obtain ⟨c₄, hvalue, h⟩ := bind_eq_ok_iff.1 h
            obtain ⟨text, ws, l₃, htext, hws, rfl, hat₃⟩ :=
              exists_of_key hat₁ hquote (lift_eq_ok_iff.1 hkey) (lift_eq_ok_iff.1 hcolon)
            obtain ⟨ws', v, hws', hv, hrest₃⟩ := exists_of_skip (lift_eq_ok_iff.1 hvalue)
            obtain ⟨l₄, rfl, hat₄⟩ :=
              hat₃.exists_solidly hws'.not_mem ⟨v ++ c₄.rest, c₃.place⟩ hrest₃
            obtain ⟨lv, l₅, rfl, rfl, hat₅⟩ := hat₄.exists_append c₄ rfl
            obtain ⟨ms, ts, text', l', rfl, hat', hend, hms, hsep, hfills, hmissing⟩ := ih hat₅ h
            refine ⟨(k, lv) :: ms, _ :: ts, _, l', ?_, hat', hend,
              .cons ⟨_, ⟨text, ws, ws', htext, hws, hws', rfl⟩, rfl⟩ hms, .next hs hsep,
              .skipped hf hv hfills, hmissing⟩
            simp [solidly]

theorem exists_of_closing {finish : Cursor → Except Fault Cursor}
    {x : Except Trouble (σ × Cursor)} {r : σ} (h : closing finish x = .ok (r, c')) :
    ∃ c, x = .ok (r, c) ∧ finish c = .ok c' := by
  cases x with
  | error t => cases t <;> cases h
  | ok v =>
      obtain ⟨c₁, hfinish, h⟩ := bind_eq_ok_iff.1 h
      cases h
      exact ⟨_, rfl, hfinish⟩

/-- Where an array ends, the fields that are left may be lacking. -/
theorem fieldItems_bracket {what : String} {fs : List (Field σ)} {index : Nat} {r : σ}
    {v : σ × Cursor} (rest : List Char) (place : Place) :
    fieldItems ls what fs index r ⟨']' :: rest, place⟩ = .ok v ↔
      v = (r, ⟨']' :: rest, place⟩) ∧ ∀ f ∈ fs, f.optional = true := by
  induction fs generalizing index with
  | nil =>
      rw [fieldItems, Except.ok.injEq, eq_comm]
      exact ⟨fun h => ⟨h, List.forall_mem_nil _⟩, And.left⟩
  | cons f fs ih =>
      have hmore : Trouble.lift (moreItems (decide (index = 0)) ⟨']' :: rest, place⟩) =
          .ok (false, ⟨']' :: rest, place⟩) := rfl
      rw [fieldItems, hmore, ok_bind]
      dsimp only
      rw [if_neg Bool.false_ne_true, List.forall_mem_cons]
      cases f.optional with
      | true => simpa using ih
      | false => simp

/-- What the items of a record are. -/
theorem exists_of_fieldItems {what : String} {fs : List (Field σ)}
    (hread : ∀ f ∈ fs, ∀ r, Recognizes (f.read r) (means f r))
    (hfirm : ∀ {f r x r'}, means f r x r' → Firm x) {index : Nat} {r r' : σ} {c₁ : Cursor}
    (hat : At ls l c) (h : fieldItems ls what fs index r c = .ok (r', c₁))
    (hend : endList c₁ = .ok c') :
    ∃ xs text l', l = text ++ some ']' :: l' ∧ At ls l' c' ∧
      Separated (index = 0) (xs.map solidly) text ∧ Lists means fs r xs r' := by
  have hclosed {c : Cursor} {l : Letters} (hat : At ls l c) (hend : endList c = .ok c') :
      ∃ ws l', Blanks ws ∧ l = solidly ws ++ some ']' :: l' ∧ At ls l' c' := by
    obtain ⟨ws, hws, hrest⟩ := exists_of_endList hend
    obtain ⟨l', rfl, hat'⟩ := hat.exists_solidly (w := ws ++ [']']) (by simpa using hws.not_mem) c'
      (by rw [hrest]; simp)
    exact ⟨ws, l', hws, by simp [solidly], hat'⟩
  induction fs generalizing l c index r with
  | nil =>
      cases h
      obtain ⟨ws, l', hws, rfl, hat'⟩ := hclosed hat hend
      exact ⟨[], _, l', rfl, hat', .done hws, .done _ (List.forall_mem_nil _)⟩
  | cons f fs ih =>
      obtain ⟨⟨more, c₂⟩, hmore, hnext⟩ := bind_eq_ok_iff.1 h
      rcases exists_of_moreItems (lift_eq_ok_iff.1 hmore) with
        ⟨rfl, hbracket, ws, hws, hrest⟩ | ⟨rfl, s, hs, hrest⟩
      · obtain ⟨l₁, rfl, hat₁⟩ := hat.exists_solidly hws.not_mem _ hrest
        obtain ⟨cs, place⟩ := c₂
        obtain ⟨rest, rfl⟩ : ∃ rest, cs = ']' :: rest := ⟨_, Cursor.rest_of_peek? hbracket⟩
        dsimp only at hnext
        rw [if_neg Bool.false_ne_true] at hnext
        split_ifs at hnext with hoptional
        obtain ⟨hv, hfs⟩ := (fieldItems_bracket rest place).1 hnext
        obtain ⟨rfl, rfl⟩ := Prod.mk.inj hv
        obtain ⟨ws', l', hws', rfl, hat'⟩ := hclosed hat₁ hend
        exact ⟨[], solidly (ws ++ ws'), l', by simp [solidly], hat', .done (hws.append hws'),
          .done _ (List.forall_mem_cons.2 ⟨hoptional, hfs⟩)⟩
      · obtain ⟨l₁, rfl, hat₁⟩ := hat.exists_solidly hs.not_mem _ hrest
        dsimp only at hnext
        rw [if_pos rfl] at hnext
        obtain ⟨⟨r₁, c₃⟩, hvalue, hnext⟩ := bind_eq_ok_iff.1 hnext
        obtain ⟨ws, x, l₂, hws, hx, rfl, hat₂⟩ := exists_of_solid
          (hread f List.mem_cons_self r) hfirm hat₁ (lift_eq_ok_iff.1 hvalue)
        obtain ⟨xs, text, l', rfl, hat', hsep, hlists⟩ :=
          ih (fun f hf => hread f (List.mem_cons_of_mem _ hf)) hat₂ hnext
        rw [decide_eq_false (Nat.succ_ne_zero index)] at hsep
        exact ⟨x :: xs, solidly (s ++ ws) ++ (solidly x ++ text), l', by simp [solidly], hat',
          .next (hs.append hws) hsep, .next hx hlists⟩

/-- What a record is read from. -/
theorem exists_of_record (hread : ∀ f ∈ fields, ∀ r, Recognizes (f.read r) (means f r))
    (hfirm : ∀ {f r x r'}, means f r x r' → Firm x) {name : String} {empty r : σ} (hat : At ls l c)
    (h : record ls name fields empty c = .ok (r, c')) :
    ∃ ws t l', Blanks ws ∧ Writes means fields empty t r ∧ l = solidly ws ++ (t ++ l') ∧
      At ls l' c' := by
  obtain ⟨ws, hws, hrest⟩ := c.exists_blanks
  obtain ⟨l₁, rfl, hat₁⟩ := hat.exists_solidly hws.not_mem _ hrest
  suffices ∃ t l', Writes means fields empty t r ∧ l₁ = t ++ l' ∧ At ls l' c' by
    obtain ⟨t, l', ht, rfl, hat'⟩ := this
    exact ⟨ws, t, l', hws, ht, rfl, hat'⟩
  unfold record at h
  dsimp only at h
  generalize c.skipBlanks = c₁ at h hat₁
  split at h
  · cases h
  · next hbracket =>
      obtain ⟨l₂, rfl, hat₂⟩ := hat₁.exists_solidly (w := ['[']) (by decide) _
        (Cursor.rest_of_peek? hbracket)
      obtain ⟨c₂, hitems, hend⟩ := exists_of_closing h
      obtain ⟨xs, text, l', rfl, hat', hsep, hlists⟩ :=
        exists_of_fieldItems hread hfirm hat₂ hitems hend
      exact ⟨_, l', .array hsep hlists, by simp [solidly], hat'⟩
  · next hbrace =>
      obtain ⟨l₂, rfl, hat₂⟩ := hat₁.exists_solidly (w := ['\x7b']) (by decide) _
        (Cursor.rest_of_peek? hbrace)
      obtain ⟨c₂, hmembers, hend⟩ := exists_of_closing h
      obtain ⟨ms, ts, text, l₃, rfl, hat₃, hclose, hms, hsep, hfills, hmissing⟩ :=
        exists_of_fieldMembers hread hfirm hat₂ hmembers
      rw [endObject_of_peek? hclose] at hend
      cases hend
      obtain ⟨l', rfl, hat'⟩ := hat₃.exists_solidly (w := ['\x7d']) (by decide) _
        (Cursor.rest_of_peek? hclose)
      exact ⟨_, l', .object hms hsep hfills hmissing, by simp [solidly], hat'⟩
  · have hmismatch := eq_ok_of_solid h
    cases hmismatch

/-- Whole letters that are read as a record write it, with blanks around it. -/
theorem exists_of_ofLetters (hread : ∀ f ∈ fields, ∀ r, Recognizes (f.read r) (means f r))
    (hfirm : ∀ {f r x r'}, means f r x r' → Firm x) {name : String} {empty r : σ}
    (h : ofLetters (fun ls => record ls name fields empty) ls = .ok r) :
    ∃ ws t ws', Blanks ws ∧ Blanks ws' ∧ Writes means fields empty t r ∧
      ls = solidly ws ++ (t ++ solidly ws') := by
  obtain ⟨⟨r', c'⟩, hrecord, h⟩ := bind_eq_ok_iff.1 h
  obtain ⟨u, hend, h⟩ := bind_eq_ok_iff.1 h
  cases h
  obtain ⟨ws, t, l', hws, ht, hls, hat'⟩ :=
    exists_of_record hread hfirm ⟨List.suffix_refl ls, rfl⟩ hrecord
  have hblanks := exists_of_atEnd hend
  rw [hat'.rest] at hblanks
  refine ⟨ws, t, shown l', hws, hblanks, ht, ?_⟩
  rw [← eq_solidly_of_not_mem hblanks.not_mem]
  exact hls

/-! ## What is of the language is read -/

theorem ends_separated {ts : List Letters} {text : Letters} {y : Char}
    (h : Separated false ts text) (hy : continuesNumeral y = false) (rest : List Char) :
    Ends (shown text ++ y :: rest) := by
  cases h with
  | done hws =>
      rw [shown_solidly]
      exact ends_blanks hws hy
  | next hs _ =>
      rw [shown_append, shown_solidly, List.append_assoc]
      exact hs.ends _

theorem length_le_of_separated {ms : List (String × Letters)} {ts : List Letters} {text : Letters}
    (hms : List.Forall₂ IsMember ms ts) (h : Separated first ts text) :
    ms.length ≤ text.length := by
  induction h generalizing ms with
  | done _ =>
      cases hms
      exact Nat.zero_le _
  | next _ _ ih =>
      cases hms with
      | cons hm hms =>
          obtain ⟨k, ⟨text, ws, ws', -, -, -, rfl⟩, rfl⟩ := hm
          have hlength := ih hms
          simp only [solidly, List.length_cons, List.length_append, List.length_map]
          omega

/-- The fuel that a text has is enough to skip any value that it starts with. -/
theorem exists_skip_value {v : List Char} (hws : Blanks ws) (hv : Parses .value v)
    (hr : Ends rest) (place : Place) :
    ∃ place', skip (fuelFor ⟨ws ++ (v ++ rest), place⟩) ⟨ws ++ (v ++ rest), place⟩ =
      .ok ⟨rest, place'⟩ := by
  refine exists_skip hws hv ?_ hr place
  simp only [fuelFor, List.length_append]
  omega

/-- A key is read up to the colon. -/
theorem exists_key {k : String} {text ws : List Char} (hs : Separates first s)
    (htext : Spells text k.toList) (hws : Blanks ws)
    (hat : At ls (solidly s ++ (solidly ('"' :: (text ++ '"' :: (ws ++ [':']))) ++ l')) c) :
    ∃ c₁ c₂ place', moreMembers first c = .ok (true, c₁) ∧
      solid ls (fun c => stringRest c.advance) c₁ = .ok (k, c₂) ∧
      colon c₂ = .ok ⟨shown l', place'⟩ := by
  have hsplit : solidly ('"' :: (text ++ '"' :: (ws ++ [':']))) ++ l' =
      solidly ([] ++ '"' :: (text ++ ['"'])) ++ (solidly (ws ++ [':']) ++ l') := by
    simp [solidly]
  rw [hsplit] at hat
  obtain ⟨place₁, hmore⟩ := exists_moreMembers hs
    ((text ++ ['"']) ++ shown (solidly (ws ++ [':']) ++ l')) c.place
  have hrest : c.rest = s ++ '"' :: ((text ++ ['"']) ++ shown (solidly (ws ++ [':']) ++ l')) := by
    rw [hat.rest, shown_append, shown_solidly, shown_append, shown_solidly]
    rfl
  rw [← hrest] at hmore
  have hat₁ : At ls (solidly ([] ++ '"' :: (text ++ ['"'])) ++ (solidly (ws ++ [':']) ++ l'))
      ⟨'"' :: ((text ++ ['"']) ++ shown (solidly (ws ++ [':']) ++ l')), place₁⟩ := by
    refine ⟨(hat.after place₁).suffix, ?_⟩
    simp only [shown_append, shown_solidly]
    rfl
  obtain ⟨place₂, hkey⟩ := exists_solid recognizes_string firm_string blanks_nil
    (show IsString _ k from ⟨text, htext, rfl⟩) hat₁
  obtain ⟨place₃, hcolon⟩ := exists_colon hws (shown l') place₂
  refine ⟨_, _, place₃, hmore, (solid_key Cursor.peek?_cons).trans hkey, ?_⟩
  rw [shown_append, shown_solidly, List.append_assoc]
  exact hcolon

/-- Members that fill a record are read. -/
theorem exists_fieldMembers (hread : ∀ f ∈ fields, ∀ r, Recognizes (f.read r) (means f r))
    (hfirm : ∀ {f r x r'}, means f r x r' → Firm x) {ms : List (String × Letters)}
    {ts : List Letters} {text : Letters} {r r' : σ} {fuel : Nat} (hms : List.Forall₂ IsMember ms ts)
    (hsep : Separated first ts text) (hfills : Fills means fields r ms r')
    (hmissing : missing? fields r' = none) (hat : At ls (text ++ some '\x7d' :: l') c)
    (hf : ms.length < fuel) :
    ∃ place', fieldMembers ls fields fuel first r c =
      .ok (r', ⟨'\x7d' :: shown l', place'⟩) := by
  induction hfills generalizing ts text first c fuel with
  | done r =>
      obtain ⟨fuel, rfl⟩ := Nat.exists_eq_add_one_of_ne_zero (Nat.ne_zero_of_lt hf)
      cases hms
      cases hsep with
      | @done _ ws hws =>
          obtain ⟨place', hmore⟩ := exists_moreMembers_end hws first (shown l') c.place
          have hrest : c.rest = ws ++ '\x7d' :: shown l' := by
            rw [hat.rest, shown_append, shown_solidly]
            rfl
          rw [← hrest] at hmore
          refine ⟨place', ?_⟩
          simp only [fieldMembers, hmore, Trouble.lift, ok_bind, Bool.false_eq_true, if_false,
            hmissing]
          rfl
  | @skipped r r' k v ms hk hv _ ih =>
      obtain ⟨fuel, rfl⟩ := Nat.exists_eq_add_one_of_ne_zero (Nat.ne_zero_of_lt hf)
      cases hms with
      | cons hm hms =>
          cases hsep with
          | @next _ s _ _ text hs hsep =>
              obtain ⟨lead, ⟨key, ws, ws', hkey, hws, hws', rfl⟩, rfl⟩ := hm
              have hat₁ : At ls (solidly s ++ (solidly ('"' :: (key ++ '"' :: (ws ++ [':']))) ++
                  (solidly ws' ++ (v ++ (text ++ some '\x7d' :: l'))))) c := by
                simpa [solidly] using hat
              obtain ⟨c₁, c₂, place₁, hmore, hkey, hcolon⟩ := exists_key hs hkey hws hat₁
              have hends : Ends (shown (text ++ some '\x7d' :: l')) := by
                rw [shown_append]
                exact ends_separated hsep (by decide) (shown l')
              obtain ⟨place₂, hskip⟩ := exists_skip_value hws' hv hends place₁
              rw [shown_append, shown_solidly, shown_append] at hcolon
              have hat₂ := (((hat₁.after place₁).after place₁).after place₁).after place₂
              obtain ⟨place₃, hrest⟩ := ih hms hsep hmissing hat₂ (Nat.lt_of_succ_lt_succ hf)
              refine ⟨place₃, ?_⟩
              simp only [fieldMembers, hmore, hkey, hk, hcolon, hskip, Trouble.lift, ok_bind, if_true]
              exact hrest
  | @field r r₁ r' f k x ms hf' hset hx _ ih =>
      obtain ⟨fuel, rfl⟩ := Nat.exists_eq_add_one_of_ne_zero (Nat.ne_zero_of_lt hf)
      cases hms with
      | cons hm hms =>
          cases hsep with
          | @next _ s _ _ text hs hsep =>
              obtain ⟨lead, ⟨key, ws, ws', hkey, hws, hws', rfl⟩, rfl⟩ := hm
              have hat₁ : At ls (solidly s ++ (solidly ('"' :: (key ++ '"' :: (ws ++ [':']))) ++
                  (solidly (ws' ++ x) ++ (text ++ some '\x7d' :: l')))) c := by
                simpa [solidly] using hat
              obtain ⟨c₁, c₂, place₁, hmore, hkey, hcolon⟩ := exists_key hs hkey hws hat₁
              have hat₂ := (hat₁.after place₁).after place₁
              obtain ⟨place₂, hvalue⟩ := exists_solid
                (hread f (List.mem_of_find?_eq_some hf') r) hfirm hws' hx hat₂
              obtain ⟨place₃, hrest⟩ :=
                ih hms hsep hmissing (hat₂.after place₂) (Nat.lt_of_succ_lt_succ hf)
              refine ⟨place₃, ?_⟩
              simp only [fieldMembers, hmore, hkey, hf', hset, hcolon, hvalue, Trouble.lift, ok_bind,
                if_true, Bool.false_eq_true, if_false]
              exact hrest

/-- Items that make a record are read, up to the bracket after them. -/
theorem exists_fieldItems (what : String) {fs : List (Field σ)}
    (hread : ∀ f ∈ fs, ∀ r, Recognizes (f.read r) (means f r))
    (hfirm : ∀ {f r x r'}, means f r x r' → Firm x) {xs : List (List Char)} {text : Letters}
    {index : Nat} {r r' : σ} (hlists : Lists means fs r xs r')
    (hsep : Separated (index = 0) (xs.map solidly) text) (hat : At ls (text ++ some ']' :: l') c) :
    ∃ c₁ place', fieldItems ls what fs index r c = .ok (r', c₁) ∧
      endList c₁ = .ok ⟨shown l', place'⟩ := by
  induction hlists generalizing text index c with
  | @done fs r h =>
      cases hsep with
      | @done _ ws hws =>
          have hrest : c.rest = ws ++ ']' :: shown l' := by
            rw [hat.rest, shown_append, shown_solidly]
            rfl
          cases fs with
          | nil =>
              obtain ⟨place', hend⟩ := exists_endList hws (shown l') c.place
              rw [← hrest] at hend
              exact ⟨c, place', rfl, hend⟩
          | cons f fs =>
              obtain ⟨hf, hfs⟩ := List.forall_mem_cons.1 h
              obtain ⟨place₁, hmore⟩ := exists_moreItems_end hws (index = 0) (shown l') c.place
              rw [← hrest] at hmore
              refine ⟨⟨']' :: shown l', place₁⟩, Cursor.after place₁ ']', ?_, rfl⟩
              simp only [fieldItems, hmore, Trouble.lift, ok_bind, Bool.false_eq_true, if_false, hf,
                if_true]
              exact (fieldItems_bracket _ _).2 ⟨rfl, hfs⟩
  | @next f fs r r₁ r' x xs hx _ ih =>
      cases hsep with
      | @next _ s _ _ text hs hsep =>
          obtain ⟨y, ys, rfl, hblank, hend⟩ := (hfirm hx).exists_cons
          have hat₁ : At ls (solidly s ++ (solidly ([] ++ y :: ys) ++ (text ++ some ']' :: l'))) c := by
            simpa using hat
          have hrest : c.rest = s ++ y :: (ys ++ shown (text ++ some ']' :: l')) := by
            rw [hat₁.rest, shown_append, shown_solidly, shown_append, shown_solidly]
            rfl
          obtain ⟨place₁, hmore⟩ := exists_moreItems hs hblank hend
            (ys ++ shown (text ++ some ']' :: l')) c.place
          have hat₂ : At ls (solidly ([] ++ y :: ys) ++ (text ++ some ']' :: l'))
              ⟨y :: (ys ++ shown (text ++ some ']' :: l')), place₁⟩ := by
            refine ⟨(hat₁.after place₁).suffix, ?_⟩
            simp only [shown_append, shown_solidly]
            rfl
          obtain ⟨place₂, hvalue⟩ := exists_solid (hread f List.mem_cons_self r) hfirm blanks_nil hx hat₂
          rw [← hrest] at hmore
          rw [← decide_eq_false (Nat.succ_ne_zero index)] at hsep
          obtain ⟨c₁, place', hitems, hclose⟩ :=
            ih (fun f hf => hread f (List.mem_cons_of_mem _ hf)) hsep (hat₂.after place₂)
          refine ⟨c₁, place', ?_, hclose⟩
          simp only [fieldItems, hmore, hvalue, Trouble.lift, ok_bind, if_true]
          exact hitems

/-- A record that is written is read. -/
theorem exists_record (hread : ∀ f ∈ fields, ∀ r, Recognizes (f.read r) (means f r))
    (hfirm : ∀ {f r x r'}, means f r x r' → Firm x) (name : String) {empty r : σ} {t : Letters}
    (hws : Blanks ws) (ht : Writes means fields empty t r)
    (hat : At ls (solidly ws ++ (t ++ l')) c) :
    ∃ place', record ls name fields empty c = .ok (r, ⟨shown l', place'⟩) := by
  cases ht with
  | @object ms ts text r hms hsep hfills hmissing =>
      have hat₁ : At ls (solidly (ws ++ ['\x7b']) ++ (text ++ some '\x7d' :: l')) c := by
        simpa [solidly] using hat
      have hrest : c.rest = ws ++ '\x7b' :: shown (text ++ some '\x7d' :: l') := by
        rw [hat₁.rest, shown_append, shown_solidly, List.append_assoc]
        rfl
      obtain ⟨place₁, hskip⟩ := Cursor.exists_skipBlanks hws (x := '\x7b') rfl
        (shown (text ++ some '\x7d' :: l')) c.place
      rw [← hrest] at hskip
      have hlength := length_le_of_separated hms hsep
      obtain ⟨place₂, hmembers⟩ := exists_fieldMembers hread hfirm hms hsep hfills hmissing
        (hat₁.after (Cursor.after place₁ '\x7b'))
        (show ms.length < fuelFor ⟨'\x7b' :: shown (text ++ some '\x7d' :: l'), place₁⟩ by
          simp only [fuelFor, shown, List.length_cons, List.length_map, List.length_append]
          omega)
      refine ⟨Cursor.after place₂ '\x7d', ?_⟩
      unfold record
      dsimp only
      rw [hskip]
      change closing endObject (fieldMembers ls fields _ true empty
        ⟨shown (text ++ some '\x7d' :: l'), Cursor.after place₁ '\x7b'⟩) = _
      rw [hmembers]
      rfl
  | @array xs text r hsep hlists =>
      have hat₁ : At ls (solidly (ws ++ ['[']) ++ (text ++ some ']' :: l')) c := by
        simpa [solidly] using hat
      have hrest : c.rest = ws ++ '[' :: shown (text ++ some ']' :: l') := by
        rw [hat₁.rest, shown_append, shown_solidly, List.append_assoc]
        rfl
      obtain ⟨place₁, hskip⟩ := Cursor.exists_skipBlanks hws (x := '[') rfl
        (shown (text ++ some ']' :: l')) c.place
      rw [← hrest] at hskip
      obtain ⟨c₁, place₂, hitems, hend⟩ := exists_fieldItems
        ("struct " ++ name ++ " with " ++ elementsText fields.length) hread hfirm hlists
        (show Separated ((0 : Nat) = 0) (xs.map solidly) text from hsep)
        (hat₁.after (Cursor.after place₁ '['))
      refine ⟨place₂, ?_⟩
      unfold record
      dsimp only
      rw [hskip]
      change closing endList (fieldItems ls _ fields 0 empty
        ⟨shown (text ++ some ']' :: l'), Cursor.after place₁ '['⟩) = _
      rw [hitems]
      change (endList c₁ >>= fun c => .ok (r, c)) = _
      rw [hend]
      rfl

/-- Letters are read as a record if they write it, with blanks around it, and not otherwise. -/
theorem ofLetters_eq_ok_iff (hread : ∀ f ∈ fields, ∀ r, Recognizes (f.read r) (means f r))
    (hfirm : ∀ {f r x r'}, means f r x r' → Firm x) (name : String) {empty r : σ} :
    ofLetters (fun ls => record ls name fields empty) ls = .ok r ↔
      ∃ ws t ws', Blanks ws ∧ Blanks ws' ∧ Writes means fields empty t r ∧
        ls = solidly ws ++ (t ++ solidly ws') := by
  refine ⟨exists_of_ofLetters hread hfirm, ?_⟩
  rintro ⟨ws, t, ws', hws, hws', ht, rfl⟩
  obtain ⟨place', hrecord⟩ := exists_record (c := ⟨shown _, ⟨1, 0⟩⟩) hread hfirm name hws ht
    ⟨List.suffix_refl _, rfl⟩
  unfold ofLetters wholeFrom
  change record _ name fields empty ⟨shown _, ⟨1, 0⟩⟩ >>= _ = _
  rw [hrecord, ok_bind]
  dsimp only
  rw [shown_solidly, atEnd_of_blanks hws']
  rfl

end Record

end Typed

end SqlGate.Json
