import SqlGate.Proofs.Json.Grammar

/-!
# Readers and their languages

A string is read if it spells something, and it is read as that (`exists_of_stringRest`,
`exists_stringRest_of_spells`). A reader `Recognizes` a language if it reads exactly the texts of it,
after blanks, as what they mean: the readers of truth values, strings and strings that may be null do
for theirs.
-/

namespace SqlGate.Json

variable {c c' : Cursor} {cs ds e rest text : List Char} {x : Char} {place : Place} {fuel : Nat}

theorem exists_of_unicodeEscape (h : unicodeEscape c = .ok (x, c')) :
    ∃ e, Escapes ('u' :: e) x ∧ c.rest = e ++ c'.rest := by
  unfold unicodeEscape at h
  obtain ⟨⟨n, c₁⟩, hhex, h⟩ := bind_eq_ok_iff.1 h
  obtain ⟨ds, hds, hrest⟩ := exists_of_hexEscape hhex
  dsimp only at h
  split_ifs at h with hlow hplain
  · cases h
    exact ⟨ds, .unicode hds (by omega), hrest⟩
  · obtain ⟨⟨y, c₂⟩, hy, h⟩ := bind_eq_ok_iff.1 h
    dsimp only at h
    split_ifs at h with hback
    obtain ⟨⟨z, c₃⟩, hz, h⟩ := bind_eq_ok_iff.1 h
    dsimp only at h
    split_ifs at h with hu
    obtain ⟨⟨m, c₄⟩, hhex', h⟩ := bind_eq_ok_iff.1 h
    obtain ⟨ds', hds', hrest'⟩ := exists_of_hexEscape hhex'
    dsimp only at h
    split_ifs at h with hrange
    obtain ⟨rfl, rfl⟩ := Prod.mk.inj (Except.ok.inj h)
    refine ⟨_, .pair hds (by omega) hds' (by omega), ?_⟩
    rw [hrest, rest_of_needChar hy, rest_of_needChar hz, hrest', not_not.1 hback, not_not.1 hu]
    simp

theorem exists_of_escapeChar (h : escapeChar c = .ok (x, c')) :
    ∃ e, Escapes e x ∧ c.rest = e ++ c'.rest := by
  unfold escapeChar at h
  obtain ⟨⟨y, c₁⟩, hy, h⟩ := bind_eq_ok_iff.1 h
  have hcons := rest_of_needChar hy
  dsimp only at h
  split at h
  case h_9 =>
    obtain ⟨e, he, hrest⟩ := exists_of_unicodeEscape h
    exact ⟨_, he, by rw [hcons, hrest]; rfl⟩
  case h_10 => cases h
  all_goals
    cases h
    exact ⟨_, .named (by simp [namedEscapes]), hcons⟩

/-- What is read between quotes spells what it is read as. -/
theorem exists_of_stringBody (h : stringBody fuel c = .ok (cs, c')) :
    ∃ text, Spells text cs ∧ c.rest = text ++ '"' :: c'.rest := by
  induction fuel generalizing c cs with
  | zero => cases h
  | succ fuel ih =>
      unfold stringBody at h
      split at h
      · cases h
      · next x hx =>
          have hcons := Cursor.rest_of_peek? hx
          split_ifs at h with hquote hback hcontrol
          · subst hquote
            cases h
            exact ⟨[], .nil, hcons⟩
          · subst hback
            obtain ⟨⟨y, c₁⟩, hy, h⟩ := bind_eq_ok_iff.1 h
            obtain ⟨⟨ys, c₂⟩, hys, h⟩ := bind_eq_ok_iff.1 h
            cases h
            obtain ⟨e, he, hescape⟩ := exists_of_escapeChar hy
            obtain ⟨text, htext, hrest⟩ := ih hys
            refine ⟨_, .escape he htext, ?_⟩
            rw [hcons, hescape, hrest]
            simp
          · obtain ⟨⟨ys, c₂⟩, hys, h⟩ := bind_eq_ok_iff.1 h
            cases h
            obtain ⟨text, htext, hrest⟩ := ih hys
            exact ⟨_, .plain ⟨hquote, hback, Nat.not_lt.1 hcontrol⟩ htext, by rw [hcons, hrest]; rfl⟩

theorem exists_escapeChar_of_escapes (h : Escapes e x) (rest : List Char) (place : Place) :
    ∃ place', escapeChar ⟨e ++ rest, place⟩ = .ok (x, ⟨rest, place'⟩) := by
  cases h with
  | named h =>
      simp only [namedEscapes, List.mem_cons, Prod.mk.injEq, List.not_mem_nil, or_false] at h
      rcases h with ⟨rfl, rfl⟩ | ⟨rfl, rfl⟩ | ⟨rfl, rfl⟩ | ⟨rfl, rfl⟩ | ⟨rfl, rfl⟩ | ⟨rfl, rfl⟩ |
        ⟨rfl, rfl⟩ | ⟨rfl, rfl⟩ <;> exact ⟨_, rfl⟩
  | @unicode ds n h hn =>
      obtain ⟨place', hhex⟩ := exists_hexEscape_of_hex h rest (Cursor.after place 'u')
      refine ⟨place', ?_⟩
      change unicodeEscape ⟨ds ++ rest, _⟩ = _
      rw [unicodeEscape, hhex, ok_bind]
      dsimp only
      rw [if_neg (by omega), if_pos (by omega)]
  | @pair ds ds' n m h hn h' hm =>
      obtain ⟨place₁, hhex⟩ := exists_hexEscape_of_hex h ('\\' :: 'u' :: (ds' ++ rest))
        (Cursor.after place 'u')
      obtain ⟨place₂, hhex'⟩ := exists_hexEscape_of_hex h' rest
        (Cursor.after (Cursor.after place₁ '\\') 'u')
      refine ⟨place₂, ?_⟩
      change unicodeEscape ⟨(ds ++ '\\' :: 'u' :: ds') ++ rest, _⟩ = _
      rw [List.append_assoc, List.cons_append, List.cons_append, unicodeEscape, hhex, ok_bind]
      dsimp only
      rw [if_neg (by omega), if_neg (by omega)]
      change (hexEscape ⟨ds' ++ rest, Cursor.after (Cursor.after place₁ '\\') 'u'⟩ >>= _) = _
      rw [hhex', ok_bind]
      dsimp only
      rw [if_neg (by omega)]

/-- What spells something is read between quotes as that. -/
theorem exists_stringBody_of_spells (h : Spells text cs) (hf : text.length < fuel)
    (rest : List Char) (place : Place) :
    ∃ place', stringBody fuel ⟨text ++ '"' :: rest, place⟩ = .ok (cs, ⟨rest, place'⟩) := by
  induction h generalizing fuel place with
  | nil =>
      obtain ⟨fuel, rfl⟩ := Nat.exists_eq_add_one_of_ne_zero (Nat.ne_zero_of_lt hf)
      exact ⟨_, rfl⟩
  | plain hx h ih =>
      obtain ⟨fuel, rfl⟩ := Nat.exists_eq_add_one_of_ne_zero (Nat.ne_zero_of_lt hf)
      obtain ⟨place₁, hstep⟩ := exists_stringBody_self fuel hx.quote hx.backslash
        (Nat.not_lt.2 hx.control)
      obtain ⟨place', hrest⟩ := ih (Nat.lt_of_succ_lt_succ hf) place₁
      exact ⟨place', by rw [List.cons_append, hstep, hrest]; rfl⟩
  | @escape e x text cs he h ih =>
      obtain ⟨fuel, rfl⟩ := Nat.exists_eq_add_one_of_ne_zero (Nat.ne_zero_of_lt hf)
      obtain ⟨place₁, hstep⟩ := exists_stringBody_of_escapeChar e fuel
        (exists_escapeChar_of_escapes he (text ++ '"' :: rest))
      have hlength : text.length < fuel := by
        rw [List.length_cons, List.length_append] at hf
        omega
      obtain ⟨place', hrest⟩ := ih hlength place₁
      exact ⟨place', by rw [List.cons_append, List.append_assoc, hstep, hrest]; rfl⟩

theorem exists_of_stringRest {s : String} (h : stringRest c = .ok (s, c')) :
    ∃ text, Spells text s.toList ∧ c.rest = text ++ '"' :: c'.rest := by
  unfold stringRest at h
  obtain ⟨⟨cs, c₁⟩, hbody, h⟩ := bind_eq_ok_iff.1 h
  cases h
  rw [String.toList_ofList]
  exact exists_of_stringBody hbody

theorem exists_stringRest_of_spells {s : String} (h : Spells text s.toList) (rest : List Char)
    (place : Place) :
    ∃ place', stringRest ⟨text ++ '"' :: rest, place⟩ = .ok (s, ⟨rest, place'⟩) := by
  have hlength : text.length < (text ++ '"' :: rest).length + 1 := by
    simp only [List.length_append, List.length_cons]
    omega
  obtain ⟨place', hbody⟩ := exists_stringBody_of_spells h hlength rest place
  refine ⟨place', ?_⟩
  rw [stringRest, hbody]
  change Except.ok (String.ofList s.toList, _) = _
  rw [String.ofList_toList]


/-! ## Readers and their languages -/

/-- A reader reads the texts of a language, after blanks, as what they mean. -/
structure Recognizes {α : Type} (read : Typed.Read α) (means : List Char → α → Prop) : Prop where
  sound : ∀ {c a c'}, read c = .ok (a, c') →
    ∃ ws x, Blanks ws ∧ means x a ∧ c.rest = ws ++ (x ++ c'.rest)
  complete : ∀ {ws x a}, Blanks ws → means x a → ∀ rest place,
    ∃ place', read ⟨ws ++ (x ++ rest), place⟩ = .ok (a, ⟨rest, place'⟩)

namespace Typed

variable {α β : Type}

theorem recognizes_map {read : Read α} {means : List Char → α → Prop} (h : Recognizes read means)
    (f : α → β) :
    Recognizes (fun c => do
      let (v, c) ← read c
      return (f v, c)) fun x b => ∃ a, means x a ∧ b = f a where
  sound := by
    intro c b c' hread
    obtain ⟨⟨a, c₁⟩, ha, hread⟩ := bind_eq_ok_iff.1 hread
    cases hread
    obtain ⟨ws, x, hws, hx, hrest⟩ := h.sound ha
    exact ⟨ws, x, hws, ⟨a, hx, rfl⟩, hrest⟩
  complete := by
    rintro ws x b hws ⟨a, hx, rfl⟩ rest place
    obtain ⟨place', ha⟩ := h.complete hws hx rest place
    exact ⟨place', by rw [ha]; rfl⟩

/-- The word of a truth value. -/
def boolWord : Bool → List Char
  | true => ['t', 'r', 'u', 'e']
  | false => ['f', 'a', 'l', 's', 'e']

/-- A string in quotes. -/
def IsString (x : List Char) (s : String) : Prop :=
  ∃ text, Spells text s.toList ∧ x = '"' :: (text ++ ['"'])

/-- A string in quotes, or null for none. -/
def IsText (x : List Char) : Option String → Prop
  | none => x = ['n', 'u', 'l', 'l']
  | some s => IsString x s

theorem exists_of_starting {start : Char → Bool} {expected : String} {read : Read α} {a : α}
    (h : starting start expected read c = .ok (a, c')) :
    ∃ ws y ys, Blanks ws ∧ start y = true ∧ c.rest = ws ++ y :: ys ∧
      ∃ c₁ : Cursor, c₁.rest = y :: ys ∧ read c₁ = .ok (a, c') := by
  obtain ⟨ws, hws, hrest⟩ := c.exists_blanks
  unfold starting at h
  dsimp only at h
  split at h
  · cases h
  · next y hy =>
      have hcons := Cursor.rest_of_peek? hy
      split_ifs at h with hstart
      exact ⟨ws, y, _, hws, hstart, by rw [hrest, hcons], _, hcons, h⟩

theorem exists_starting (start : Char → Bool) (expected : String) (read : Read α) {y : Char}
    (hy : start y = true) (hblank : Cursor.isBlank y = false) {ws : List Char} (hws : Blanks ws)
    (ys : List Char) (place : Place) :
    ∃ place', starting start expected read ⟨ws ++ y :: ys, place⟩ = read ⟨y :: ys, place'⟩ := by
  obtain ⟨place', hskip⟩ := Cursor.exists_skipBlanks hws hblank ys place
  refine ⟨place', ?_⟩
  unfold starting
  rw [hskip]
  dsimp only [Cursor.peek?_cons]
  rw [if_pos hy]

theorem recognizes_string : Recognizes string IsString where
  sound := by
    intro c s c' h
    obtain ⟨ws, y, ys, hws, hy, hrest, c₁, hc₁, hread⟩ := exists_of_starting h
    obtain ⟨text, htext, hbody⟩ := exists_of_stringRest hread
    have hys : c₁.advance.rest = ys := by
      simp [Cursor.advance, hc₁]
    refine ⟨ws, _, hws, ⟨text, htext, rfl⟩, ?_⟩
    rw [hrest, of_decide_eq_true hy, ← hys, hbody]
    simp
  complete := by
    intro ws x s hws h rest place
    obtain ⟨text, htext, rfl⟩ := h
    obtain ⟨place₁, hstart⟩ := exists_starting (fun x => x = '"') "a string"
      (fun c => stringRest c.advance) (y := '"') rfl rfl hws (text ++ '"' :: rest) place
    obtain ⟨place₂, hread⟩ := exists_stringRest_of_spells htext rest (Cursor.after place₁ '"')
    refine ⟨place₂, ?_⟩
    rw [List.cons_append, List.append_assoc]
    exact hstart.trans hread

/-- A truth value is told by its first letter. -/
theorem exists_bool (y : Char) (hy : (y = 't' || y = 'f') = true)
    (hblank : Cursor.isBlank y = false) {ws : List Char} (hws : Blanks ws) (ys : List Char)
    (place : Place) : ∃ place', bool ⟨ws ++ y :: ys, place⟩ =
      if y = 't' then do return (true, ← Cursor.word "rue".toList ⟨ys, Cursor.after place' y⟩)
      else do return (false, ← Cursor.word "alse".toList ⟨ys, Cursor.after place' y⟩) := by
  obtain ⟨place', hstart⟩ :=
    exists_starting (fun x => x = 't' || x = 'f') "a boolean" _ hy hblank hws ys place
  refine ⟨place', hstart.trans ?_⟩
  simp only [Cursor.peek?_cons, Cursor.advance_cons, Option.some.injEq]

theorem recognizes_bool : Recognizes bool fun x b => x = boolWord b where
  sound := by
    intro c b c' h
    obtain ⟨ws, y, ys, hws, hy, hrest, c₁, hc₁, hread⟩ := exists_of_starting h
    have hys : c₁.advance.rest = ys := by
      simp [Cursor.advance, hc₁]
    have hpeek : c₁.peek? = some y := by
      simp [Cursor.peek?, hc₁]
    rw [hpeek] at hread
    split_ifs at hread with ht
    · obtain ⟨c₂, hword, hread⟩ := bind_eq_ok_iff.1 hread
      cases hread
      refine ⟨ws, _, hws, rfl, ?_⟩
      rw [hrest, Option.some.inj ht, ← hys, Cursor.rest_of_word hword]
      rfl
    · obtain ⟨c₂, hword, hread⟩ := bind_eq_ok_iff.1 hread
      cases hread
      have hf : y = 'f' := by
        simpa [show y ≠ 't' from fun h => ht (h ▸ rfl)] using hy
      refine ⟨ws, _, hws, rfl, ?_⟩
      rw [hrest, hf, ← hys, Cursor.rest_of_word hword]
      rfl
  complete := by
    intro ws x b hws h rest place
    subst h
    cases b with
    | true =>
        obtain ⟨place₁, hstart⟩ := exists_bool 't' rfl rfl hws ("rue".toList ++ rest) place
        obtain ⟨place₂, hword⟩ := Cursor.exists_word "rue".toList rest (Cursor.after place₁ 't')
        refine ⟨place₂, hstart.trans ((if_pos rfl).trans ?_)⟩
        rw [hword]
        rfl
    | false =>
        obtain ⟨place₁, hstart⟩ := exists_bool 'f' rfl rfl hws ("alse".toList ++ rest) place
        obtain ⟨place₂, hword⟩ := Cursor.exists_word "alse".toList rest (Cursor.after place₁ 'f')
        refine ⟨place₂, hstart.trans ((if_neg (by decide)).trans ?_)⟩
        rw [hword]
        rfl

theorem recognizes_optional_string : Recognizes (optional string) IsText where
  sound := by
    intro c v c' h
    unfold optional at h
    dsimp only at h
    split_ifs at h with hn
    · obtain ⟨ws, hws, hrest⟩ := c.exists_blanks
      obtain ⟨c₁, hword, h⟩ := bind_eq_ok_iff.1 h
      cases h
      refine ⟨ws, _, hws, rfl, ?_⟩
      rw [hrest, Cursor.rest_of_peek? hn, Cursor.rest_of_word hword]
      rfl
    · obtain ⟨⟨s, c₁⟩, hread, h⟩ := bind_eq_ok_iff.1 h
      cases h
      obtain ⟨ws, hws, hrest⟩ := c.exists_blanks
      obtain ⟨ws', x, hws', hx, hrest'⟩ := recognizes_string.sound hread
      exact ⟨ws ++ ws', x, hws.append hws', hx, by rw [hrest, hrest', List.append_assoc]⟩
  complete := by
    intro ws x v hws h rest place
    cases v with
    | none =>
        subst h
        obtain ⟨place₁, hskip⟩ := Cursor.exists_skipBlanks hws (x := 'n') rfl
          ("ull".toList ++ rest) place
        obtain ⟨place₂, hword⟩ := Cursor.exists_word "ull".toList rest (Cursor.after place₁ 'n')
        refine ⟨place₂, ?_⟩
        change optional string ⟨ws ++ 'n' :: ("ull".toList ++ rest), place⟩ = _
        unfold optional
        rw [hskip]
        refine (if_pos Cursor.peek?_cons).trans ?_
        rw [Cursor.advance_cons, hword]
        rfl
    | some s =>
        obtain ⟨text, htext, rfl⟩ := h
        obtain ⟨place₁, hskip⟩ := Cursor.exists_skipBlanks hws (x := '"') rfl
          ((text ++ ['"']) ++ rest) place
        obtain ⟨place₂, hread⟩ :=
          recognizes_string.complete (a := s) blanks_nil ⟨text, htext, rfl⟩ rest place₁
        refine ⟨place₂, ?_⟩
        unfold optional
        rw [List.cons_append, hskip]
        rw [List.nil_append, List.cons_append] at hread
        refine (if_neg (by simp)).trans ?_
        rw [hread]
        rfl

end Typed

end SqlGate.Json
