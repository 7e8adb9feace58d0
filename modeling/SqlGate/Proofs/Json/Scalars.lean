import Mathlib.Tactic.SplitIfs
import SqlGate.Json.Printer
import SqlGate.Proofs.Json.NumberText
import SqlGate.Proofs.Json.Reads

/-!
# Scalars are read back

## Strings

Each character of a string is written in one of three ways: as itself, as a letter after a backslash,
or by its number. Reading takes one step for a character however it was written
(`exists_stringBody_escape`), and so a string in quotes is read back in as many steps as it has
characters.
-/

namespace SqlGate.Json

variable {c : Char} {rest : List Char} {place : Place}

/-- A character that stands for itself. -/
theorem exists_stringBody_self (fuel : Nat) (hq : c ≠ '"') (hb : c ≠ '\\') (hc : ¬c.toNat < 32) :
    ∃ place', stringBody (fuel + 1) ⟨c :: rest, place⟩ =
      (stringBody fuel ⟨rest, place'⟩).map fun (ys, c') => (c :: ys, c') := by
  refine ⟨Cursor.after place c, ?_⟩
  simp only [stringBody, Cursor.peek?_cons, Cursor.advance_cons, if_neg hq, if_neg hb, if_neg hc]
  cases stringBody fuel ⟨rest, Cursor.after place c⟩ <;> rfl

/-- A character that is written as an escape. -/
theorem exists_stringBody_of_escapeChar (cs : List Char) (fuel : Nat)
    (h : ∀ place, ∃ place', escapeChar ⟨cs ++ rest, place⟩ = .ok (c, ⟨rest, place'⟩)) :
    ∃ place', stringBody (fuel + 1) ⟨'\\' :: (cs ++ rest), place⟩ =
      (stringBody fuel ⟨rest, place'⟩).map fun (ys, c') => (c :: ys, c') := by
  obtain ⟨place', hread⟩ := h (Cursor.after place '\\')
  refine ⟨place', ?_⟩
  have hquote : ('\\' : Char) ≠ '"' := by decide
  simp only [stringBody, Cursor.peek?_cons, Cursor.advance_cons, if_neg hquote, if_pos, hread]
  change (stringBody fuel ⟨rest, place'⟩ >>= fun (ys, c') => .ok (c :: ys, c')) = _
  cases stringBody fuel ⟨rest, place'⟩ <;> rfl

theorem le_foldl_utf8Size (cs : List Char) (n : Nat) :
    n ≤ cs.foldl (fun n x => n + x.utf8Size) n := by
  induction cs generalizing n with
  | nil => exact Nat.le_refl n
  | cons c cs ih => exact Nat.le_trans (Nat.le_add_right n c.utf8Size) (ih _)

theorem not_bytesLeft_lt (a b c d : Char) (rest : List Char) (place : Place) :
    ¬Cursor.bytesLeft ⟨a :: b :: c :: d :: rest, place⟩ < 4 := by
  have hfour : 4 ≤ 0 + a.utf8Size + b.utf8Size + c.utf8Size + d.utf8Size := by
    have ha := a.utf8Size_pos
    have hb := b.utf8Size_pos
    have hc := c.utf8Size_pos
    have hd := d.utf8Size_pos
    omega
  exact Nat.not_lt.2 (Nat.le_trans hfour (le_foldl_utf8Size rest _))

theorem digit?_digit {n : Nat} (h : n < 16) : Text.Hex.digit? (Text.Hex.digit n) = some n := by
  revert n
  decide

/-- The number of a control character, in four digits. -/
theorem exists_hexEscape (hc : c.toNat < 32) (rest : List Char) (place : Place) : ∃ place',
    hexEscape ⟨'0' :: '0' :: Text.Hex.digit (c.toNat / 16) :: Text.Hex.digit (c.toNat % 16) :: rest,
      place⟩ = .ok (c.toNat, ⟨rest, place'⟩) := by
  have hhigh := digit?_digit (show c.toNat / 16 < 16 by omega)
  have hlow := digit?_digit (show c.toNat % 16 < 16 by omega)
  have hzero : Text.Hex.digit? '0' = some 0 := by decide
  refine ⟨Cursor.placeAfter place ['0', '0', Text.Hex.digit (c.toNat / 16),
    Text.Hex.digit (c.toNat % 16)], ?_⟩
  rw [hexEscape, if_neg (not_bytesLeft_lt _ _ _ _ rest place)]
  simp only [List.take_succ_cons, List.take_zero, List.map_cons, List.map_nil, hzero, hhigh, hlow,
    List.drop_succ_cons, List.drop_zero]
  rw [show ((0 * 16 + 0) * 16 + c.toNat / 16) * 16 + c.toNat % 16 = c.toNat by omega]

theorem exists_unicodeEscape (hc : c.toNat < 32) (rest : List Char) (place : Place) : ∃ place',
    unicodeEscape ⟨'0' :: '0' :: Text.Hex.digit (c.toNat / 16) :: Text.Hex.digit (c.toNat % 16) ::
      rest, place⟩ = .ok (c, ⟨rest, place'⟩) := by
  obtain ⟨place', h⟩ := exists_hexEscape hc rest place
  refine ⟨place', ?_⟩
  rw [unicodeEscape, h]
  change (if 0xDC00 ≤ c.toNat ∧ c.toNat ≤ 0xDFFF then _ else _) = _
  rw [if_neg (by omega), if_pos (by omega), Char.ofNat_toNat]

/-- However a character is written, it is read in one step. -/
theorem exists_stringBody_escape (c : Char) (rest : List Char) (place : Place) (fuel : Nat) :
    ∃ place', stringBody (fuel + 1) ⟨escape c ++ rest, place⟩ =
      (stringBody fuel ⟨rest, place'⟩).map fun (ys, c') => (c :: ys, c') := by
  -- The named escapes are read by looking at their letter.
  have hnamed : ∀ (d : Char) (m : Nat), c.toNat = m →
      (∀ place, ∃ place', escapeChar ⟨[d] ++ rest, place⟩ =
        .ok (Char.ofNat m, ⟨rest, place'⟩)) →
      ∃ place', stringBody (fuel + 1) ⟨['\\', d] ++ rest, place⟩ =
        (stringBody fuel ⟨rest, place'⟩).map fun (ys, c') => (c :: ys, c') := by
    intro d m hm h
    rw [← hm, Char.ofNat_toNat] at h
    exact exists_stringBody_of_escapeChar [d] fuel h
  unfold escape
  split_ifs with hquote hback h8 h9 h10 h12 h13 hcontrol
  · subst hquote
    exact hnamed _ 34 rfl fun place => ⟨_, rfl⟩
  · subst hback
    exact hnamed _ 92 rfl fun place => ⟨_, rfl⟩
  · exact hnamed _ 8 h8 fun place => ⟨_, rfl⟩
  · exact hnamed _ 9 h9 fun place => ⟨_, rfl⟩
  · exact hnamed _ 10 h10 fun place => ⟨_, rfl⟩
  · exact hnamed _ 12 h12 fun place => ⟨_, rfl⟩
  · exact hnamed _ 13 h13 fun place => ⟨_, rfl⟩
  · refine exists_stringBody_of_escapeChar ['u', '0', '0', Text.Hex.digit (c.toNat / 16),
      Text.Hex.digit (c.toNat % 16)] fuel fun place => ?_
    obtain ⟨place', h⟩ := exists_unicodeEscape hcontrol rest (Cursor.after place 'u')
    exact ⟨place', h⟩
  · exact exists_stringBody_self fuel hquote hback hcontrol

/-- The characters of a string are read up to its closing quote. -/
theorem exists_stringBody (cs rest : List Char) (place : Place) {fuel : Nat}
    (h : cs.length < fuel) : ∃ place',
      stringBody fuel ⟨cs.flatMap escape ++ '"' :: rest, place⟩ = .ok (cs, ⟨rest, place'⟩) := by
  induction cs generalizing place fuel with
  | nil =>
      obtain ⟨fuel, rfl⟩ := Nat.exists_eq_add_one_of_ne_zero (Nat.ne_zero_of_lt h)
      exact ⟨_, rfl⟩
  | cons c cs ih =>
      obtain ⟨fuel, rfl⟩ := Nat.exists_eq_add_one_of_ne_zero (Nat.ne_zero_of_lt h)
      rw [List.flatMap_cons, List.append_assoc]
      obtain ⟨place₁, hc⟩ := exists_stringBody_escape c (cs.flatMap escape ++ '"' :: rest) place fuel
      obtain ⟨place₂, hcs⟩ := ih place₁ (Nat.lt_of_succ_lt_succ h)
      exact ⟨place₂, by rw [hc, hcs]; rfl⟩

theorem length_le_flatMap_escape (cs : List Char) : cs.length ≤ (cs.flatMap escape).length := by
  induction cs with
  | nil => exact Nat.le_refl 0
  | cons c cs ih =>
      have hc : 1 ≤ (escape c).length := by
        unfold escape
        split_ifs <;> simp
      rw [List.flatMap_cons, List.length_append, List.length_cons]
      omega

theorem exists_stringRest (s : String) (rest : List Char) (place : Place) : ∃ place',
    stringRest ⟨s.toList.flatMap escape ++ '"' :: rest, place⟩ = .ok (s, ⟨rest, place'⟩) := by
  have hfuel : s.toList.length < (s.toList.flatMap escape ++ '"' :: rest).length + 1 := by
    have hlength := length_le_flatMap_escape s.toList
    rw [List.length_append]
    omega
  obtain ⟨place', h⟩ := exists_stringBody s.toList rest place hfuel
  refine ⟨place', ?_⟩
  rw [stringRest, h]
  exact congrArg (fun x => Except.ok (x, _)) String.ofList_toList

theorem toList_quote (s : String) :
    (quote s).toList = '"' :: (s.toList.flatMap escape ++ ['"']) := by
  simp [quote]

end SqlGate.Json

/-!
## Numbers and words

A value that is no array and no object is read in one step, whatever fuel and nesting are left.
Strings, words and integers of 64 bits are read back; of any other number nothing is said but that
the text of it alone decides what it is read as (`reads_value_num`).
-/

namespace SqlGate.Json

open Number Numeral

/-- The characters of a value, the first of which shows that there is one. -/
def Begins (cs : List Char) : Prop :=
  ∃ c r, cs = c :: r ∧ Cursor.isBlank c = false ∧ c ≠ ']'

theorem value_scalar {c : Char} (fuel depth : Nat) (rest : List Char) (place : Place)
    (hblank : Cursor.isBlank c = false) (harr : c ≠ '[') (hobj : c ≠ '\x7b') :
    value (fuel + 1) depth ⟨c :: rest, place⟩ = scalar c ⟨c :: rest, place⟩ := by
  rw [value, Cursor.skipBlanks_cons hblank, Cursor.peek?_cons]
  dsimp only
  rw [if_neg harr, if_neg hobj]

theorem ne_of_isDigit {c d : Char} (hc : c.isDigit) (hd : d.isDigit = false) : c ≠ d := by
  rintro rfl
  exact absurd (hc.symm.trans hd) (by decide)

theorem isBlank_of_isDigit {c : Char} (h : c.isDigit) : Cursor.isBlank c = false := by
  simp only [Cursor.isBlank, Bool.or_eq_false_iff, decide_eq_false_iff_not]
  exact ⟨⟨⟨ne_of_isDigit h rfl, ne_of_isDigit h rfl⟩, ne_of_isDigit h rfl⟩, ne_of_isDigit h rfl⟩

theorem scalar_digit {c : Char} (h : c.isDigit) (cursor : Cursor) :
    scalar c cursor = Numeral.read false cursor >>= fun (n, c) => .ok (.num n, c) := by
  have hvalue : (digitValue? c).isSome := by
    rw [digitValue?_of_isDigit h]
    rfl
  rw [scalar, if_neg (ne_of_isDigit h rfl), if_neg (ne_of_isDigit h rfl),
    if_neg (ne_of_isDigit h rfl), if_neg (ne_of_isDigit h rfl), if_pos hvalue]
  rfl

/-- However a numeral is written, it starts with a digit. -/
theorem exists_cons_of_isText {w : Written} (h : w.Sound) {cs : List Char} (htext : w.IsText cs) :
    ∃ d ds, cs = d :: ds ∧ d.isDigit := by
  obtain ⟨htext⟩ := htext
  obtain ⟨d, ds, hwhole⟩ := List.exists_cons_of_ne_nil h.whole.1
  rw [hwhole]
  exact ⟨d, _, rfl, h.whole.2 d (hwhole ▸ List.mem_cons_self)⟩

/-- A numeral is read as the number that it becomes. -/
theorem reads_value_of_isText {w : Written} (h : w.Sound) {cs : List Char} (htext : w.IsText cs)
    (negative : Bool) (fuel depth : Nat) :
    Reads (value (fuel + 1) depth) (sign negative ++ cs) ((w.outcome negative).map .num) := by
  intro rest place hr
  cases negative with
  | true =>
      change Gives (value (fuel + 1) depth ⟨'-' :: (cs ++ rest), place⟩) _ rest
      rw [value_scalar fuel depth _ place rfl (by decide) (by decide)]
      exact (reads_of_isText h htext true rest (Cursor.after place '-') hr).map Json.num
  | false =>
      have hread := (reads_of_isText h htext false rest place hr).map Json.num
      obtain ⟨d, ds, rfl, hd⟩ := exists_cons_of_isText h htext
      change Gives (value (fuel + 1) depth ⟨d :: (ds ++ rest), place⟩) _ rest
      rw [value_scalar fuel depth _ place (isBlank_of_isDigit hd) (ne_of_isDigit hd rfl)
        (ne_of_isDigit hd rfl), scalar_digit hd]
      exact hread

theorem reads_value_numeral {w : Written} (h : w.Sound) (negative : Bool) (fuel depth : Nat) :
    Reads (value (fuel + 1) depth) (sign negative ++ w.chars)
      ((w.outcome negative).map .num) :=
  reads_value_of_isText h w.isText_chars negative fuel depth

theorem begins_of_isText {w : Written} (h : w.Sound) {cs : List Char} (htext : w.IsText cs)
    (negative : Bool) : Begins (sign negative ++ cs) := by
  cases negative with
  | true => exact ⟨'-', cs, rfl, rfl, by decide⟩
  | false =>
      obtain ⟨d, ds, rfl, hd⟩ := exists_cons_of_isText h htext
      exact ⟨d, ds, rfl, isBlank_of_isDigit hd, ne_of_isDigit hd rfl⟩

theorem begins_numeral {w : Written} (h : w.Sound) (negative : Bool) :
    Begins (sign negative ++ w.chars) :=
  begins_of_isText h w.isText_chars negative

theorem ofString?_of_reads {s : String} {outcome : Option Json}
    (h : Reads (value (fuelFor (Cursor.ofString s)) maxDepth) s.toList outcome) :
    ofString? s = outcome := h.toOption_ofString

theorem reads_value_null (fuel depth : Nat) :
    Reads (value (fuel + 1) depth) "null".toList (some .null) := by
  intro rest place _
  obtain ⟨place', hword⟩ := Cursor.exists_word "ull".toList rest (Cursor.after place 'n')
  change Gives (value (fuel + 1) depth ⟨'n' :: ("ull".toList ++ rest), place⟩) _ rest
  rw [value_scalar fuel depth _ place rfl (by decide) (by decide), scalar, if_pos rfl,
    Cursor.advance_cons, hword]
  exact gives_ok _ rest place'

theorem reads_value_bool (b : Bool) (fuel depth : Nat) :
    Reads (value (fuel + 1) depth) (text (.bool b)).toList (some (.bool b)) := by
  intro rest place _
  cases b with
  | true =>
      obtain ⟨place', hword⟩ := Cursor.exists_word "rue".toList rest (Cursor.after place 't')
      change Gives (value (fuel + 1) depth ⟨'t' :: ("rue".toList ++ rest), place⟩) _ rest
      rw [value_scalar fuel depth _ place rfl (by decide) (by decide), scalar,
        if_neg (by decide), if_pos rfl, Cursor.advance_cons, hword]
      exact gives_ok _ rest place'
  | false =>
      obtain ⟨place', hword⟩ := Cursor.exists_word "alse".toList rest (Cursor.after place 'f')
      change Gives (value (fuel + 1) depth ⟨'f' :: ("alse".toList ++ rest), place⟩) _ rest
      rw [value_scalar fuel depth _ place rfl (by decide) (by decide), scalar,
        if_neg (by decide), if_neg (by decide), if_pos rfl, Cursor.advance_cons, hword]
      exact gives_ok _ rest place'

theorem reads_value_str (s : String) (fuel depth : Nat) :
    Reads (value (fuel + 1) depth) (quote s).toList (some (.str s)) := by
  intro rest place _
  obtain ⟨place', hread⟩ := exists_stringRest s rest (Cursor.after place '"')
  rw [toList_quote, List.cons_append, List.append_assoc,
    value_scalar fuel depth _ place rfl (by decide) (by decide), scalar, if_neg (by decide),
    if_neg (by decide), if_neg (by decide), if_neg (by decide), if_neg (by decide), if_pos rfl,
    Cursor.advance_cons, List.singleton_append, hread]
  exact gives_ok _ rest place'

/-- A number is written as a numeral, unless JSON cannot carry it. -/
theorem text_num (n : Num) : (∃ (negative : Bool) (w : Written), w.Sound ∧
    n.text.toList = sign negative ++ w.chars) ∨ n.text = "null" := by
  cases n with
  | int i =>
      left
      rcases natCast_or_neg i with ⟨n, rfl⟩ | ⟨n, hn, rfl⟩
      · exact ⟨false, .ofNat n, sound_ofNat n, toList_text_natCast n⟩
      · exact ⟨true, .ofNat n, sound_ofNat n, toList_text_neg hn⟩
  | real x =>
      cases hv : x.value with
      | finite negative m e => exact .inl ⟨negative, exists_written_json hv⟩
      | nan => exact .inr (by simp [Num.text, Double.json, Double.json?, hv])
      | infinity negative => exact .inr (by simp [Num.text, Double.json, Double.json?, hv])

theorem ofString?_numeral {s : String} {negative : Bool} {w : Written} (h : w.Sound)
    (hs : s.toList = sign negative ++ w.chars) :
    ofString? s = (w.outcome negative).map .num := by
  refine ofString?_of_reads ?_
  rw [hs]
  exact reads_value_numeral h negative _ maxDepth

theorem reads_value_num (n : Num) (fuel depth : Nat) :
    Reads (value (fuel + 1) depth) n.text.toList (ofString? n.text) := by
  rcases text_num n with ⟨negative, w, hw, htext⟩ | htext
  · rw [ofString?_numeral hw htext, htext]
    exact reads_value_numeral hw negative fuel depth
  · have hnull : ofString? n.text = some .null := by
      refine ofString?_of_reads ?_
      rw [htext]
      exact reads_value_null _ maxDepth
    rw [hnull, htext]
    exact reads_value_null fuel depth

theorem reads_numeral_ofNat {n : Nat} (h : n ≤ maxUnsigned) :
    Reads (Numeral.read false) (Written.ofNat n).chars (some (.int n)) := by
  have hread := reads_numeral (sound_ofNat n) false
  rw [outcome_ofNat false h, integer, if_pos (by simp)] at hread
  exact hread

/-- An integer of 64 bits is read back. -/
theorem ofString?_int {i : Int} (hlow : -9223372036854775808 ≤ i)
    (hhigh : i < 18446744073709551616) :
    ofString? (Num.text (.int i)) = some (.num (.int i)) := by
  rcases natCast_or_neg i with ⟨n, rfl⟩ | ⟨n, hn, rfl⟩
  · rw [ofString?_numeral (sound_ofNat n) (toList_text_natCast n),
      outcome_ofNat false (by rw [maxUnsigned]; omega), integer, if_pos (by simp)]
    rfl
  · rw [ofString?_numeral (sound_ofNat n) (toList_text_neg hn),
      outcome_ofNat true (by rw [maxUnsigned]; omega), integer, if_neg (by simp),
      if_neg (by omega)]
    rfl

end SqlGate.Json
