import SqlGate.Proofs.Json.Sound

/-!
# A text is the text of one value

Two values that texts can have are written the same way only if they are the same
(`eq_of_text_eq`). Reading the text does not show this, as a double may be read as its neighbour;
but the text of a double is a decimal, and only one double is nearest to that. The rest is that no
value goes on where another one ends, so that what comes after a value is told as well (`Tells`).
-/

namespace SqlGate.Json

open Number Numeral

variable {β : Type} {rest rest' : List Char}

/-! ## Numerals -/

/-- Digits end where something else begins. -/
theorem run_unique {ds ds' : List Char} (hd : ∀ c ∈ ds, c.isDigit) (hd' : ∀ c ∈ ds', c.isDigit)
    (hr : NoDigit rest) (hr' : NoDigit rest') (h : ds ++ rest = ds' ++ rest') :
    ds = ds' ∧ rest = rest' := by
  have hds : ds = ds' := by
    rw [← takeWhile_run hd hr, h, takeWhile_run hd' hr']
  subst hds
  exact ⟨rfl, List.append_cancel_left h⟩

theorem Ends.ne_cons {c : Char} (hr : Ends rest) (hc : continuesNumeral c = true) (cs : List Char) :
    rest ≠ c :: cs := by
  rintro rfl
  exact absurd (hr c rfl) (by simp [hc])

theorem lettered_unique {e e' : Option (Bool × List Char)} (he : ∀ x ∈ e, IsRun x.2)
    (he' : ∀ x ∈ e', IsRun x.2) (hr : Ends rest) (hr' : Ends rest')
    (h : lettered e ++ rest = lettered e' ++ rest') : e = e' ∧ rest = rest' := by
  match e, e' with
  | none, none => exact ⟨rfl, h⟩
  | none, some _ => exact absurd h (hr.ne_cons rfl _)
  | some _, none => exact absurd h.symm (hr'.ne_cons rfl _)
  | some (negative, ds), some (negative', ds') =>
      obtain ⟨hsign, hrun⟩ := List.cons.inj (List.cons.inj h).2
      obtain ⟨rfl, hrest⟩ := run_unique (he _ rfl).2 (he' _ rfl).2 hr.noDigit hr'.noDigit hrun
      have hnegative : negative = negative' := by
        cases negative <;> cases negative' <;> first | rfl | exact absurd hsign (by decide)
      exact ⟨by rw [hnegative], hrest⟩

theorem pointed_unique {part part' : List Char} {e e' : Option (Bool × List Char)}
    (hp : ∀ c ∈ part, c.isDigit) (hp' : ∀ c ∈ part', c.isDigit) (hr : Ends rest) (hr' : Ends rest')
    (h : pointed part ++ (lettered e ++ rest) = pointed part' ++ (lettered e' ++ rest')) :
    part = part' ∧ lettered e ++ rest = lettered e' ++ rest' := by
  have hpoint : ∀ {e rest} {d : Char} {ds cs : List Char}, Ends rest →
      lettered e ++ rest ≠ pointed (d :: ds) ++ cs := by
    intro e rest d ds cs hr
    cases e with
    | none => exact hr.ne_cons rfl _
    | some e => exact fun h => absurd (List.cons.inj h).1 (by decide)
  match part, part' with
  | [], [] => exact ⟨rfl, h⟩
  | [], _ :: _ => exact absurd h (hpoint hr)
  | _ :: _, [] => exact absurd h.symm (hpoint hr')
  | _ :: _, _ :: _ =>
      exact run_unique hp hp' (noDigit_lettered hr) (noDigit_lettered hr') (List.cons.inj h).2

/-- A numeral is told by its characters, and so is what comes after it. -/
theorem Numeral.Written.unique {w w' : Written} (h : w.Sound) (h' : w'.Sound) (hr : Ends rest)
    (hr' : Ends rest') (heq : w.chars ++ rest = w'.chars ++ rest') : w = w' ∧ rest = rest' := by
  obtain ⟨whole, part, e⟩ := w
  obtain ⟨whole', part', e'⟩ := w'
  simp only [Written.chars, List.append_assoc] at heq
  obtain ⟨hwhole, hpart⟩ := run_unique h.whole.2 h'.whole.2
    (List.append_assoc _ _ rest ▸ noDigit_pointed hr)
    (List.append_assoc _ _ rest' ▸ noDigit_pointed hr') heq
  obtain ⟨hpart, hexponent⟩ := pointed_unique h.part h'.part hr hr' hpart
  obtain ⟨hexponent, hrest⟩ := lettered_unique h.exponent h'.exponent hr hr' hexponent
  dsimp only at hwhole hpart hexponent
  exact ⟨by rw [hwhole, hpart, hexponent], hrest⟩

theorem Numeral.Written.Sound.exists_digit {w : Written} (h : w.Sound) :
    ∃ c cs, w.chars = c :: cs ∧ c.isDigit := by
  obtain ⟨c, cs, hcs⟩ := List.exists_cons_of_ne_nil h.whole.1
  refine ⟨c, cs ++ (pointed w.part ++ lettered w.exponent), ?_, h.whole.2 c (by simp [hcs])⟩
  rw [Written.chars, hcs]
  rfl

/-- A numeral with its sign is told by its characters. -/
theorem signed_unique {negative negative' : Bool} {w w' : Written} (h : w.Sound) (h' : w'.Sound)
    (hr : Ends rest) (hr' : Ends rest')
    (heq : sign negative ++ w.chars ++ rest = sign negative' ++ w'.chars ++ rest') :
    negative = negative' ∧ w = w' ∧ rest = rest' := by
  have hminus : ∀ {w : Written} {cs : List Char} (rest : List Char), w.Sound →
      w.chars ++ rest ≠ '-' :: cs := by
    intro w cs rest hw hcs
    obtain ⟨c, ds, hc, hdigit⟩ := hw.exists_digit
    rw [hc] at hcs
    exact ne_of_isDigit hdigit rfl (List.cons.inj hcs).1
  cases negative <;> cases negative'
  · exact ⟨rfl, Written.unique h h' hr hr' heq⟩
  · exact absurd heq (hminus rest h)
  · exact absurd heq.symm (hminus rest' h')
  · exact ⟨rfl, Written.unique h h' hr hr' (List.cons.inj heq).2⟩

/-- The number whose text a numeral is. -/
def Numeral.Written.number (w : Written) (negative : Bool) : Num :=
  if w.part = [] ∧ w.exponent = none then
    .int (if negative then -(Nat.ofDigitChars 10 w.whole 0 : Int) else Nat.ofDigitChars 10 w.whole 0)
  else .real (Double.ofMagnitude negative (w.decimal.nearest double))

theorem number_ofNat (n : Nat) (negative : Bool) :
    (Written.ofNat n).number negative = .int (if negative then -(n : Int) else n) := by
  have hn : Nat.ofDigitChars 10 (Text.digits n) 0 = n := Text.ofDigitChars_digits n
  rw [Written.number, if_pos ⟨rfl, rfl⟩]
  dsimp only [Written.ofNat]
  rw [hn]

/-- The text of a finite double is a numeral of it. -/
theorem exists_number_json {x : Double} (h : x.IsFinite) : ∃ (negative : Bool) (w : Written),
    w.Sound ∧ x.json.toList = sign negative ++ w.chars ∧ w.number negative = .real x := by
  obtain ⟨negative, m, e, hvalue⟩ := h
  obtain ⟨rfl, hfinite, hsplit⟩ := split_of_value hvalue
  by_cases hm : m = 0
  · subst hm
    have hzero : x.bits.toNat % double.signBit = 0 := (eq_zero_iff_of_split hsplit).1 rfl
    refine ⟨_, .zero, sound_zero, toList_json_zero hvalue, ?_⟩
    have hnearest : Written.zero.decimal.nearest double = x.bits.toNat % double.signBit := by
      rw [hzero]
      exact nearest_of_digits_eq_zero rfl
    rw [Written.number, if_neg (by simp [Written.zero]), hnearest, ofMagnitude_mod]
  · have hpos : x.bits.toNat % double.signBit ≠ 0 := mt (eq_zero_iff_of_split hsplit).2 hm
    refine ⟨_, _, sound_ofDecimal (digits_shortest_of_value hvalue hm), toList_json hvalue hm, ?_⟩
    rw [Written.number, if_neg (by rw [not_and_or]; exact part_or_exponent_ofDecimal _),
      decimal_ofDecimal, nearest_taken, nearest_shortest (by decide) hpos hfinite, ofMagnitude_mod]

/-- The text of a number is a numeral of it. -/
theorem exists_number {n : Num} (h : Readable (.num n)) : ∃ (negative : Bool) (w : Written),
    w.Sound ∧ n.text.toList = sign negative ++ w.chars ∧ w.number negative = n := by
  cases h with
  | @int i hlow hhigh =>
      rcases natCast_or_neg i with ⟨n, rfl⟩ | ⟨n, hn, rfl⟩
      · exact ⟨false, .ofNat n, sound_ofNat n, toList_text_natCast n, number_ofNat n false⟩
      · exact ⟨true, .ofNat n, sound_ofNat n, toList_text_neg hn, number_ofNat n true⟩
  | real h => exact exists_number_json h

/-! ## What a value begins with -/

/-- Kinds of values. -/
inductive Kind where
  | null
  | bool (b : Bool)
  | num
  | str
  | arr
  | obj

/-- The kind of the values that begin with a character. -/
def kindOf (c : Char) : Kind :=
  if c = 'n' then .null
  else if c = 't' then .bool true
  else if c = 'f' then .bool false
  else if c = '"' then .str
  else if c = '[' then .arr
  else if c = '\x7b' then .obj
  else .num

/-- The kind of a value. -/
def kind : Json → Kind
  | .null => .null
  | .bool b => .bool b
  | .num _ => .num
  | .str _ => .str
  | .arr _ => .arr
  | .obj _ => .obj

theorem kindOf_isDigit {c : Char} (h : c.isDigit) : kindOf c = .num := by
  rw [kindOf, if_neg (ne_of_isDigit h rfl), if_neg (ne_of_isDigit h rfl),
    if_neg (ne_of_isDigit h rfl), if_neg (ne_of_isDigit h rfl), if_neg (ne_of_isDigit h rfl),
    if_neg (ne_of_isDigit h rfl)]

theorem exists_kindOf {v : Json} (h : Readable v) : ∃ c cs, chars v = c :: cs ∧ kindOf c = v.kind := by
  cases v with
  | null => exact ⟨'n', "ull".toList, by simp [chars, text], rfl⟩
  | bool b =>
      cases b with
      | true => exact ⟨'t', "rue".toList, by simp [chars, text], rfl⟩
      | false => exact ⟨'f', "alse".toList, by simp [chars, text], rfl⟩
  | num n =>
      obtain ⟨negative, w, hw, htext, -⟩ := exists_number h
      rw [chars, text, htext]
      cases negative with
      | true => exact ⟨'-', w.chars, rfl, rfl⟩
      | false =>
          obtain ⟨c, cs, hc, hdigit⟩ := hw.exists_digit
          exact ⟨c, cs, hc, kindOf_isDigit hdigit⟩
  | str s => exact ⟨'"', _, toList_quote s, rfl⟩
  | arr xs => exact ⟨'[', _, chars_arr xs, rfl⟩
  | obj ms => exact ⟨'\x7b', _, chars_obj ms, rfl⟩

theorem kind_eq {v w : Json} (hv : Readable v) (hw : Readable w)
    (h : chars v ++ rest = chars w ++ rest') : v.kind = w.kind := by
  obtain ⟨c, cs, hc, hkind⟩ := exists_kindOf hv
  obtain ⟨d, ds, hd, hkind'⟩ := exists_kindOf hw
  rw [hc, hd] at h
  rw [← hkind, ← hkind', (List.cons.inj h).1]

/-! ## Values -/

/-- Nothing else that is allowed is written like this, whatever comes after it. -/
def Tells (text : β → List Char) (ok : β → Prop) (y : β) : Prop :=
  ∀ z, ok z → ∀ rest rest', Ends rest → Ends rest' → text y ++ rest = text z ++ rest' →
    y = z ∧ rest = rest'

theorem quote_unique {s s' : String} (h : (quote s).toList ++ rest = (quote s').toList ++ rest') :
    s = s' ∧ rest = rest' := by
  obtain ⟨place, hs⟩ := exists_stringRest s rest ⟨1, 0⟩
  obtain ⟨place', hs'⟩ := exists_stringRest s' rest' ⟨1, 0⟩
  simp only [toList_quote, List.cons_append, List.append_assoc, List.nil_append] at h
  rw [(List.cons.inj h).2, hs'] at hs
  cases hs
  exact ⟨rfl, rfl⟩

section Lists

variable {text : β → List Char} {ok : β → Prop} {close : Char} {ys zs : List β}

theorem trailing_unique (hclose : continuesNumeral close = false) (hcomma : close ≠ ',')
    (hys : ∀ y ∈ ys, Tells text ok y) (hzs : ∀ z ∈ zs, ok z)
    (h : trailing text ys ++ close :: rest = trailing text zs ++ close :: rest') :
    ys = zs ∧ rest = rest' := by
  induction ys generalizing zs with
  | nil =>
      cases zs with
      | nil => exact ⟨rfl, (List.cons.inj h).2⟩
      | cons z zs => exact absurd (List.cons.inj h).1 hcomma
  | cons y ys ih =>
      cases zs with
      | nil => exact absurd (List.cons.inj h).1.symm hcomma
      | cons z zs =>
          simp only [trailing, List.flatMap_cons, List.cons_append, List.append_assoc] at h
          obtain ⟨rfl, hnext⟩ := hys y List.mem_cons_self z (hzs z List.mem_cons_self) _ _
            (ends_trailing text ys rest hclose) (ends_trailing text zs rest' hclose)
            (List.cons.inj h).2
          obtain ⟨rfl, hrest⟩ := ih (fun y hy => hys y (List.mem_cons_of_mem _ hy))
            (fun z hz => hzs z (List.mem_cons_of_mem _ hz)) hnext
          exact ⟨rfl, hrest⟩

/-- Items with commas between them are told if each of them is, and none begins like the end. -/
theorem separated_unique (hclose : continuesNumeral close = false) (hcomma : close ≠ ',')
    (hstart : ∀ y, ∃ c cs, text y = c :: cs ∧ c ≠ close) (hys : ∀ y ∈ ys, Tells text ok y)
    (hzs : ∀ z ∈ zs, ok z)
    (h : separated text ys ++ close :: rest = separated text zs ++ close :: rest') :
    ys = zs ∧ rest = rest' := by
  have hne : ∀ {y} {ys : List β} {cs rest : List Char},
      separated text (y :: ys) ++ cs ≠ close :: rest := by
    intro y ys cs rest h
    obtain ⟨c, ds, hc, hne⟩ := hstart y
    rw [separated, hc] at h
    exact hne (List.cons.inj h).1
  cases ys with
  | nil =>
      cases zs with
      | nil => exact ⟨rfl, (List.cons.inj h).2⟩
      | cons z zs => exact absurd h.symm hne
  | cons y ys =>
      cases zs with
      | nil => exact absurd h hne
      | cons z zs =>
          rw [separated, separated, List.append_assoc, List.append_assoc] at h
          obtain ⟨rfl, hnext⟩ := hys y List.mem_cons_self z (hzs z List.mem_cons_self) _ _
            (ends_trailing text ys rest hclose) (ends_trailing text zs rest' hclose) h
          obtain ⟨rfl, hrest⟩ := trailing_unique hclose hcomma
            (fun y hy => hys y (List.mem_cons_of_mem _ hy))
            (fun z hz => hzs z (List.mem_cons_of_mem _ hz)) hnext
          exact ⟨rfl, hrest⟩

end Lists

theorem tells_member {m : String × Json} (h : Tells chars Readable m.2) :
    Tells memberText (fun m => Readable m.2) m := by
  rintro ⟨k, w⟩ hw rest rest' hr hr' heq
  obtain ⟨k', v⟩ := m
  rw [memberText, memberText, List.append_assoc, List.append_assoc] at heq
  obtain ⟨rfl, heq⟩ := quote_unique heq
  obtain ⟨rfl, hrest⟩ := h w hw rest rest' hr hr' (List.cons.inj heq).2
  exact ⟨rfl, hrest⟩

/-- Numbers are told from each other by their numerals. -/
theorem num_unique {n n' : Num} (hn : Readable (.num n)) (hn' : Readable (.num n'))
    {rest rest' : List Char} (hr : Ends rest) (hr' : Ends rest')
    (heq : chars (.num n) ++ rest = chars (.num n') ++ rest') :
    Json.num n = .num n' ∧ rest = rest' := by
  obtain ⟨negative, x, hx, htext, hnumber⟩ := exists_number hn
  obtain ⟨negative', x', hx', htext', hnumber'⟩ := exists_number hn'
  rw [chars, chars, text, text, htext, htext'] at heq
  obtain ⟨rfl, rfl, hrest⟩ := signed_unique hx hx' hr hr' heq
  exact ⟨by rw [← hnumber, ← hnumber'], hrest⟩

theorem tells_num {n : Num} (h : Readable (.num n)) : Tells chars Readable (.num n) := by
  intro w hw rest rest' hr hr' heq
  have hkind := kind_eq h hw heq
  cases hw with
  | int hlow hhigh => exact num_unique h (.int hlow hhigh) hr hr' heq
  | real h' => exact num_unique h (.real h') hr hr' heq
  | _ => cases hkind

/-- A value is told by its characters, and so is what comes after it. -/
theorem tells_chars {v : Json} (h : Readable v) : Tells chars Readable v := by
  induction h with
  | null =>
      intro w hw rest rest' hr hr' heq
      have hkind := kind_eq .null hw heq
      cases hw with
      | null => exact ⟨rfl, List.append_cancel_left heq⟩
      | _ => cases hkind
  | bool b =>
      intro w hw rest rest' hr hr' heq
      have hkind := kind_eq (.bool b) hw heq
      cases hw with
      | bool b' =>
          cases hkind
          exact ⟨rfl, List.append_cancel_left heq⟩
      | _ => cases hkind
  | int hlow hhigh => exact tells_num (.int hlow hhigh)
  | real h => exact tells_num (.real h)
  | str s =>
      intro w hw rest rest' hr hr' heq
      have hkind := kind_eq (.str s) hw heq
      cases hw with
      | str s' =>
          obtain ⟨rfl, hrest⟩ := quote_unique heq
          exact ⟨rfl, hrest⟩
      | _ => cases hkind
  | @arr xs h ih =>
      intro w hw rest rest' hr hr' heq
      have hkind := kind_eq (.arr h) hw heq
      cases hw with
      | @arr ys hys =>
          simp only [chars_arr, List.cons_append, List.append_assoc, List.nil_append] at heq
          have hstart : ∀ x : Json, ∃ c cs, chars x = c :: cs ∧ c ≠ ']' := fun x => by
            obtain ⟨c, cs, hc, -, hne⟩ := begins_chars x
            exact ⟨c, cs, hc, hne⟩
          obtain ⟨rfl, hrest⟩ := separated_unique rfl (by decide) hstart ih hys (List.cons.inj heq).2
          exact ⟨rfl, hrest⟩
      | _ => cases hkind
  | @obj ms hkeys h ih =>
      intro w hw rest rest' hr hr' heq
      have hkind := kind_eq (.obj hkeys h) hw heq
      cases hw with
      | @obj ns hkeys' hns =>
          simp only [chars_obj, List.cons_append, List.append_assoc, List.nil_append] at heq
          have hstart : ∀ m : String × Json, ∃ c cs, memberText m = c :: cs ∧ c ≠ '\x7d' := fun m =>
            ⟨'"', _, by rw [memberText, toList_quote]; rfl, by decide⟩
          obtain ⟨rfl, hrest⟩ := separated_unique rfl (by decide) hstart
            (fun m hm => tells_member (ih m hm)) hns (List.cons.inj heq).2
          exact ⟨rfl, hrest⟩
      | _ => cases hkind

/-- Values that texts can have are the same if their texts are. -/
theorem eq_of_text_eq {v w : Json} (hv : Readable v) (hw : Readable w) (h : v.text = w.text) :
    v = w := by
  refine (tells_chars hv w hw [] [] ends_nil ends_nil ?_).1
  rw [chars, chars, h]

end SqlGate.Json
