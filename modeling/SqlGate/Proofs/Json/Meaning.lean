import SqlGate.Proofs.Json.Records

/-!
# What texts mean

Which value a JSON text has is said by `Means`, without a reader: it is the grammar of values, with
what each of its parts stands for, how deep arrays and objects may stand inside each other, and a
numeral only if it is in range. A text is read as a value if it means it, with blanks around it, and
not otherwise (`ofString?_eq_some_iff`).

## Numerals

A numeral that is read is one of the grammar, and it is read as the number that it becomes
(`Numeral.exists_of_read`).
-/

namespace SqlGate.Json

namespace Numeral

variable {negative : Bool} {significand : Nat} {start : Int} {n : Num} {c c' : Cursor}

theorem of_finish {e : Int} (h : finish negative significand e c = .ok (n, c')) :
    (scaled negative significand e).map .real = some n ∧ c' = c := by
  unfold finish at h
  cases hx : scaled negative significand e with
  | none =>
      rw [hx] at h
      cases h
  | some x =>
      rw [hx] at h
      cases h
      exact ⟨rfl, rfl⟩

theorem exists_of_exponentSign {e : Char} (he : e = 'e' ∨ e = 'E') (c : Cursor) (ds : List Char) :
    ∃ sign, c.rest = sign ++ (exponentSign c).2.rest ∧
      IsLettered (some ((exponentSign c).1, ds)) (e :: (sign ++ ds)) := by
  unfold exponentSign
  split
  next hplus => exact ⟨['+'], Cursor.rest_of_peek? hplus, .plus he (.inr rfl)⟩
  next hminus => exact ⟨['-'], Cursor.rest_of_peek? hminus, .minus he⟩
  next => exact ⟨[], rfl, .plus he (.inl rfl)⟩

theorem exists_of_exponentDigits {sign : Bool}
    (h : exponentDigits negative significand start sign c = .ok (n, c')) :
    ∃ ds, IsRun ds ∧ c.rest = ds ++ c'.rest ∧
      scaledBy negative significand start (some (sign, ds)) = some n := by
  unfold exponentDigits at h
  split at h
  · cases h
  · next x hx =>
      split at h
      · cases h
      · next hdigit =>
          rcases hrun : digitRun c with ⟨vs, c₁⟩
          obtain ⟨ds, hds, hrest, hvalues, -⟩ :=
            exists_run_of_peek? hrun hx (by simpa [Option.isSome_iff_ne_none] using hdigit)
          refine ⟨ds, hds, ?_⟩
          rw [scaledBy, ← hvalues]
          simp only [hrun] at h
          rcases hacc : accumulate maxExponent 0 vs with ⟨k, _ | ⟨l, left⟩⟩
          · rw [hacc] at h
            obtain ⟨hn, rfl⟩ := of_finish h
            exact ⟨hrest, hn⟩
          · rw [hacc] at h
            dsimp only at h ⊢
            split_ifs at h ⊢ with hout
            cases h
            exact ⟨hrest, rfl⟩

/-- An exponent that is read is written in one of its ways. -/
theorem exists_of_exponent (hletter : atExponent c = true)
    (h : exponent negative significand start c = .ok (n, c')) :
    ∃ e text, IsRun e.2 ∧ IsLettered (some e) text ∧ c.rest = text ++ c'.rest ∧
      scaledBy negative significand start (some e) = some n := by
  rw [exponent_eq] at h
  obtain ⟨e, he, hrest⟩ := exists_of_atExponent hletter
  obtain ⟨ds, hds, hdigits, hn⟩ := exists_of_exponentDigits h
  obtain ⟨sign, hsign, htext⟩ := exists_of_exponentSign he c.advance ds
  exact ⟨_, _, hds, htext, by rw [hrest, hsign, hdigits]; simp, hn⟩

theorem exists_of_fraction (hpoint : c.peek? = some '.')
    (h : fraction negative significand start c = .ok (n, c')) :
    ∃ part e text, IsRun part ∧ (∀ x ∈ e, IsRun x.2) ∧ IsLettered e text ∧
      c.rest = '.' :: (part ++ (text ++ c'.rest)) ∧
      extended negative significand start part e = some n := by
  have hcons := Cursor.rest_of_peek? hpoint
  unfold fraction at h
  rcases hrun : digitRun c.advance with ⟨_ | ⟨v, vs⟩, c₁⟩
  · simp only [hrun] at h
    cases h
  · obtain ⟨part, hpart, hrest, hvalues⟩ := exists_run hrun (List.cons_ne_nil v vs)
    have hlength : (v :: vs).length = part.length := by rw [hvalues, values, List.length_map]
    simp only [hrun] at h
    rcases hacc : accumulate maxUnsigned significand (v :: vs) with ⟨k, dropped⟩
    simp only [hacc, hlength] at h
    have hextended : ∀ e, extended negative significand start part e =
        scaledBy negative k (start - (part.length - dropped.length : Nat)) e := by
      intro e
      rw [extended, ← hvalues, hacc]
    split_ifs at h with hletter
    · obtain ⟨e, text, he, htext, hrest', hn⟩ := exists_of_exponent hletter h
      refine ⟨part, some e, text, hpart, ?_, htext, by rw [hcons, hrest, hrest'], hextended _ ▸ hn⟩
      rintro x ⟨⟩
      exact he
    · obtain ⟨hn, rfl⟩ := of_finish h
      refine ⟨part, none, [], hpart, fun x hx => absurd hx (Option.not_mem_none x), .none, ?_,
        hextended _ ▸ hn⟩
      rw [hcons, hrest]
      rfl

/-- A fraction and an exponent that are read, or what there is without them. -/
theorem exists_of_followed {last : Outcome} {alone : Option Num}
    (hlast : last = .ok (n, c') → alone = some n ∧ c' = c)
    (h : (if c.peek? = some '.' then fraction negative significand start c
      else if atExponent c then exponent negative significand start c
      else last) = .ok (n, c')) :
    ∃ part e text, (∀ x ∈ part, x.isDigit) ∧ (∀ x ∈ e, IsRun x.2) ∧ IsLettered e text ∧
      c.rest = pointed part ++ text ++ c'.rest ∧
      followed negative significand start part e alone = some n := by
  split_ifs at h with hpoint hletter
  · obtain ⟨part, e, text, hpart, he, htext, hrest, hn⟩ := exists_of_fraction hpoint h
    obtain ⟨d, ds, rfl⟩ := List.exists_cons_of_ne_nil hpart.1
    exact ⟨_, e, text, hpart.2, he, htext, by rw [hrest]; simp [pointed], hn⟩
  · obtain ⟨e, text, he, htext, hrest, hn⟩ := exists_of_exponent hletter h
    refine ⟨[], some e, text, List.forall_mem_nil _, ?_, htext, hrest, hn⟩
    rintro x ⟨⟩
    exact he
  · obtain ⟨hn, rfl⟩ := hlast h
    exact ⟨[], none, [], List.forall_mem_nil _, fun x hx => absurd hx (Option.not_mem_none x), .none,
      rfl, hn⟩

theorem of_integer {k : Nat}
    (h : (if ¬ negative then Except.ok (.int k, c)
      else if k = 0 ∨ 9223372036854775808 < k then
        Except.ok (.real (Number.Double.ofQuotient true k 1), c)
      else Except.ok (.int (-(k : Int)), c)) = (Except.ok (n, c') : Outcome)) :
    some (integer negative k) = some n ∧ c' = c := by
  unfold integer
  split_ifs at h ⊢ <;> cases h <;> exact ⟨rfl, rfl⟩

theorem exists_of_integral {k : Nat} (h : integral negative k c = .ok (n, c')) :
    ∃ part e text, (∀ x ∈ part, x.isDigit) ∧ (∀ x ∈ e, IsRun x.2) ∧ IsLettered e text ∧
      c.rest = pointed part ++ text ++ c'.rest ∧
      followed negative k 0 part e (some (integer negative k)) = some n := by
  unfold integral at h
  exact exists_of_followed of_integer h

theorem eq_zero_of_digitValue? {x : Char} (h : digitValue? x = some 0) : x = '0' := by
  have hdigit := isDigit_of_digitValue? (Option.isSome_iff_exists.2 ⟨0, h⟩)
  have hbounds := Text.bounds_of_isDigit hdigit
  have hzero := Option.some.inj ((digitValue?_of_isDigit hdigit).symm.trans h)
  have hord : '0'.toNat = 48 := rfl
  exact Char.toNat_inj.1 (by omega)

/-- A numeral that is read is one, and it is read as the number that it becomes. -/
theorem exists_of_read (h : read negative c = .ok (n, c')) : ∃ (w : Written) (cs : List Char),
    w.Sound ∧ w.IsText cs ∧ c.rest = cs ++ c'.rest ∧ w.outcome negative = some n := by
  unfold read at h
  split at h
  · cases h
  · next x hx =>
      split at h
      · cases h
      · next hzero =>
          obtain rfl := eq_zero_of_digitValue? hzero
          dsimp only at h
          split at h
          · cases h
          · obtain ⟨part, e, text, hpart, he, htext, hrest, hn⟩ := exists_of_integral h
            refine ⟨⟨['0'], part, e⟩, _, ⟨?_, .inl rfl, hpart, he⟩, .intro htext, ?_, hn⟩
            · exact ⟨List.cons_ne_nil _ _, by simp⟩
            · rw [Cursor.rest_of_peek? hx, hrest]
              rfl
      · next k hne hdigit =>
          rcases hrun : digitRun c with ⟨vs, c₁⟩
          obtain ⟨run, hwhole, hrest, hvalues, hhead⟩ :=
            exists_run_of_peek? hrun hx (Option.isSome_iff_exists.2 ⟨k, hdigit⟩)
          have hlead : run.head? ≠ some '0' := by
            rw [hhead]
            rintro ⟨⟩
            exact hne (Option.some.inj (hdigit.symm.trans rfl))
          simp only [hrun] at h
          rcases hacc : accumulate maxUnsigned 0 vs with ⟨m, _ | ⟨l, left⟩⟩
          · rw [hacc] at h
            obtain ⟨part, e, text, hpart, he, htext, hrest', hn⟩ := exists_of_integral h
            refine ⟨⟨run, part, e⟩, _, ⟨hwhole, .inr hlead, hpart, he⟩, .intro htext, ?_, ?_⟩
            · rw [hrest, hrest']
              simp
            · rw [Written.outcome, ← hvalues, hacc]
              exact hn
          · rw [hacc] at h
            obtain ⟨part, e, text, hpart, he, htext, hrest', hn⟩ :=
              exists_of_followed of_finish h
            refine ⟨⟨run, part, e⟩, _, ⟨hwhole, .inr hlead, hpart, he⟩, .intro htext, ?_, ?_⟩
            · rw [hrest, hrest']
              simp
            · rw [Written.outcome, ← hvalues, hacc]
              exact hn

end Numeral

/-! ## Values -/

mutual

/-- What is written for a value in which arrays and objects stand at most `depth` deep. -/
inductive Means : Nat → List Char → Json → Prop where
  | null {depth : Nat} : Means depth ['n', 'u', 'l', 'l'] .null
  | bool {depth : Nat} (b : Bool) : Means depth (Typed.boolWord b) (.bool b)
  | num {depth : Nat} {w : Numeral.Written} {cs : List Char} {negative : Bool} {n : Num}
    (h : w.Sound) (htext : w.IsText cs) (hn : w.outcome negative = some n) :
    Means depth (sign negative ++ cs) (.num n)
  | str {depth : Nat} {x : List Char} {s : String} (h : Typed.IsString x s) : Means depth x (.str s)
  | arr {depth : Nat} {cs : List Char} {vs : List Json} (h : Itemizes depth true cs vs) :
    Means (depth + 1) ('[' :: (cs ++ [']'])) (.arr vs)
  | obj {depth : Nat} {cs : List Char} {ms : List (String × Json)} (h : Assigns depth true cs ms) :
    Means (depth + 1) ('\x7b' :: (cs ++ ['\x7d'])) (Json.object ms)

/-- What is left of what stands between brackets, and the items that it lists. -/
inductive Itemizes : Nat → Bool → List Char → List Json → Prop where
  | done {depth : Nat} {first : Bool} {ws : List Char} (h : Blanks ws) : Itemizes depth first ws []
  | next {depth : Nat} {first : Bool} {s x cs : List Char} {v : Json} {vs : List Json}
    (hs : Separates first s) (hx : Means depth x v) (h : Itemizes depth false cs vs) :
    Itemizes depth first (s ++ (x ++ cs)) (v :: vs)

/-- What is left of what stands between braces, and the members that it gives, in their order. -/
inductive Assigns : Nat → Bool → List Char → List (String × Json) → Prop where
  | done {depth : Nat} {first : Bool} {ws : List Char} (h : Blanks ws) : Assigns depth first ws []
  | next {depth : Nat} {first : Bool} {s label x cs : List Char} {k : String} {v : Json}
    {ms : List (String × Json)} (hs : Separates first s)
    (hk : Labels (fun text => Spells text k.toList) label) (hx : Means depth x v)
    (h : Assigns depth false cs ms) : Assigns depth first (s ++ (label ++ (x ++ cs))) ((k, v) :: ms)

end

variable {depth : Nat} {x : List Char} {v : Json} {vs : List Json} {ms acc : List (String × Json)}

/-! ### What is read is what the text means -/

/-- What is read by some fuel. The members of an object join those that are read already. -/
structure Understands (fuel : Nat) : Prop where
  value : ∀ {depth c v c'}, value fuel (depth + 1) c = .ok (v, c') →
    ∃ ws x, Blanks ws ∧ Means depth x v ∧ c.rest = ws ++ (x ++ c'.rest)
  items : ∀ {depth first c vs c'}, items fuel (depth + 1) first c = .ok (vs, c') →
    ∃ cs, Itemizes depth first cs vs ∧ c.rest = cs ++ c'.rest ∧ c'.peek? = some ']'
  members : ∀ {depth first acc c ms c'}, members fuel (depth + 1) first acc c = .ok (ms, c') →
    ∃ cs given, Assigns depth first cs given ∧ c.rest = cs ++ c'.rest ∧ c'.peek? = some '\x7d' ∧
      ms = given.foldl (fun acc kv => insert kv.1 kv.2 acc) acc

theorem exists_of_scalar_ok {y : Char} (hy : c.peek? = some y) (h : scalar y c = .ok (v, c')) :
    ∃ x, Means depth x v ∧ c.rest = x ++ c'.rest := by
  have hcons := Cursor.rest_of_peek? hy
  unfold scalar at h
  split_ifs at h with hnull htrue hfalse hminus hdigit hquote
  · obtain ⟨c₁, hword, h⟩ := bind_eq_ok_iff.1 h
    cases h
    exact ⟨_, .null, by rw [hcons, hnull, Cursor.rest_of_word hword]; rfl⟩
  · obtain ⟨c₁, hword, h⟩ := bind_eq_ok_iff.1 h
    cases h
    exact ⟨_, .bool true, by rw [hcons, htrue, Cursor.rest_of_word hword]; rfl⟩
  · obtain ⟨c₁, hword, h⟩ := bind_eq_ok_iff.1 h
    cases h
    exact ⟨_, .bool false, by rw [hcons, hfalse, Cursor.rest_of_word hword]; rfl⟩
  · obtain ⟨⟨n, c₁⟩, hread, h⟩ := bind_eq_ok_iff.1 h
    cases h
    obtain ⟨w, cs, hw, htext, hrest, hn⟩ := Numeral.exists_of_read hread
    exact ⟨_, .num hw htext hn, by rw [hcons, hminus, hrest]; rfl⟩
  · obtain ⟨⟨n, c₁⟩, hread, h⟩ := bind_eq_ok_iff.1 h
    cases h
    obtain ⟨w, cs, hw, htext, hrest, hn⟩ := Numeral.exists_of_read hread
    exact ⟨_, .num hw htext hn, hrest⟩
  · obtain ⟨⟨s, c₁⟩, hstring, h⟩ := bind_eq_ok_iff.1 h
    cases h
    obtain ⟨text, htext, hrest⟩ := exists_of_stringRest hstring
    exact ⟨_, .str ⟨text, htext, rfl⟩, by rw [hcons, hquote, hrest]; simp⟩

theorem Understands.value_succ (ih : Understands fuel)
    (h : Json.value (fuel + 1) (depth + 1) c = .ok (v, c')) :
    ∃ ws x, Blanks ws ∧ Means depth x v ∧ c.rest = ws ++ (x ++ c'.rest) := by
  obtain ⟨ws, hws, hrest⟩ := c.exists_blanks
  suffices ∃ x, Means depth x v ∧ c.skipBlanks.rest = x ++ c'.rest by
    obtain ⟨x, hx, hrest'⟩ := this
    exact ⟨ws, x, hws, hx, by rw [hrest, hrest']⟩
  unfold Json.value at h
  dsimp only at h
  generalize c.skipBlanks = c₁ at h
  split at h
  · cases h
  · next y hy =>
      have hcons := Cursor.rest_of_peek? hy
      split_ifs at h with hbracket hdeep hbrace hdeep
      · obtain ⟨depth, rfl⟩ : ∃ d, depth = d + 1 := Nat.exists_eq_add_one.2 (by omega)
        obtain ⟨⟨vs, c₂⟩, hitems, h⟩ := bind_eq_ok_iff.1 h
        obtain ⟨cs, hcs, hinner, hpeek⟩ := ih.items hitems
        obtain ⟨c₃, hend, h⟩ := bind_eq_ok_iff.1 h
        rw [endList_of_peek? hpeek] at hend
        cases hend
        cases h
        refine ⟨_, .arr hcs, ?_⟩
        rw [hcons, hbracket, hinner, Cursor.rest_of_peek? hpeek]
        simp
      · obtain ⟨depth, rfl⟩ : ∃ d, depth = d + 1 := Nat.exists_eq_add_one.2 (by omega)
        obtain ⟨⟨ms, c₂⟩, hmembers, h⟩ := bind_eq_ok_iff.1 h
        obtain ⟨cs, given, hcs, hinner, hpeek, rfl⟩ := ih.members hmembers
        obtain ⟨c₃, hend, h⟩ := bind_eq_ok_iff.1 h
        rw [endObject_of_peek? hpeek] at hend
        cases hend
        cases h
        refine ⟨_, .obj hcs, ?_⟩
        rw [hcons, hbrace, hinner, Cursor.rest_of_peek? hpeek]
        simp
      · exact exists_of_scalar_ok hy h

theorem Understands.items_succ (ih : Understands fuel)
    (h : Json.items (fuel + 1) (depth + 1) first c = .ok (vs, c')) :
    ∃ cs, Itemizes depth first cs vs ∧ c.rest = cs ++ c'.rest ∧ c'.peek? = some ']' := by
  unfold Json.items at h
  obtain ⟨⟨more, c₁⟩, hmore, h⟩ := bind_eq_ok_iff.1 h
  rcases exists_of_moreItems hmore with ⟨rfl, hpeek, ws, hws, hrest⟩ | ⟨rfl, s, hs, hrest⟩
  · cases h
    exact ⟨ws, .done hws, hrest, hpeek⟩
  · obtain ⟨⟨v, c₂⟩, hvalue, h⟩ := bind_eq_ok_iff.1 h
    obtain ⟨⟨vs, c₃⟩, hitems, h⟩ := bind_eq_ok_iff.1 h
    cases h
    obtain ⟨ws, x, hws, hx, hrest₁⟩ := ih.value hvalue
    obtain ⟨cs, hcs, hrest₂, hpeek⟩ := ih.items hitems
    refine ⟨_, .next (hs.append hws) hx hcs, ?_, hpeek⟩
    rw [hrest, hrest₁, hrest₂]
    simp

theorem Understands.members_succ (ih : Understands fuel)
    (h : Json.members (fuel + 1) (depth + 1) first acc c = .ok (ms, c')) :
    ∃ cs given, Assigns depth first cs given ∧ c.rest = cs ++ c'.rest ∧ c'.peek? = some '\x7d' ∧
      ms = given.foldl (fun acc kv => insert kv.1 kv.2 acc) acc := by
  unfold Json.members at h
  obtain ⟨⟨more, c₁⟩, hmore, h⟩ := bind_eq_ok_iff.1 h
  rcases exists_of_moreMembers hmore with ⟨rfl, hpeek, ws, hws, hrest⟩ | ⟨rfl, hquote, s, hs, hrest⟩
  · cases h
    exact ⟨ws, [], .done hws, hrest, hpeek, rfl⟩
  · obtain ⟨⟨k, c₂⟩, hkey, h⟩ := bind_eq_ok_iff.1 h
    obtain ⟨c₃, hcolon, h⟩ := bind_eq_ok_iff.1 h
    obtain ⟨⟨v, c₄⟩, hvalue, h⟩ := bind_eq_ok_iff.1 h
    obtain ⟨text, htext, hrest₁⟩ := exists_of_stringRest hkey
    obtain ⟨ws, hws, hrest₂⟩ := exists_of_colon hcolon
    obtain ⟨ws', x, hws', hx, hrest₃⟩ := ih.value hvalue
    obtain ⟨cs, given, hcs, hrest₄, hpeek, hms⟩ := ih.members h
    refine ⟨_, (k, v) :: given, .next hs ⟨text, ws, ws', htext, hws, hws', rfl⟩ hx hcs, ?_, hpeek, hms⟩
    rw [hrest, Cursor.rest_of_peek? hquote, hrest₁, hrest₂, hrest₃, hrest₄]
    simp

theorem understands (fuel : Nat) : Understands fuel := by
  induction fuel with
  | zero =>
      constructor
      · intro depth c v c' h
        cases h
      · intro depth first c vs c' h
        cases h
      · intro depth first acc c ms c' h
        cases h
  | succ fuel ih => exact ⟨ih.value_succ, ih.items_succ, ih.members_succ⟩

/-! ### What a text means is read -/

theorem Means.begins (h : Means depth x v) : Begins x := by
  cases h with
  | null => exact ⟨_, _, rfl, rfl, by decide⟩
  | bool b => cases b <;> exact ⟨_, _, rfl, rfl, by decide⟩
  | num h htext _ => exact begins_of_isText h htext _
  | str h =>
      obtain ⟨text, -, rfl⟩ := h
      exact ⟨_, _, rfl, rfl, by decide⟩
  | arr _ => exact ⟨_, _, rfl, rfl, by decide⟩
  | obj _ => exact ⟨_, _, rfl, rfl, by decide⟩

theorem Itemizes.ends (h : Itemizes depth false cs vs) (rest : List Char) :
    Ends (cs ++ ']' :: rest) := by
  cases h with
  | done hws => exact ends_blanks hws rfl
  | next hs _ _ =>
      rw [List.append_assoc]
      exact hs.ends _

theorem Assigns.ends (h : Assigns depth false cs ms) (rest : List Char) :
    Ends (cs ++ '\x7d' :: rest) := by
  cases h with
  | done hws => exact ends_blanks hws rfl
  | next hs _ _ _ =>
      rw [List.append_assoc]
      exact hs.ends _

/-- What some fuel is enough for. -/
structure Understood (fuel : Nat) : Prop where
  value : ∀ {depth ws x v rest}, Blanks ws → Means depth x v → x.length ≤ fuel → Ends rest →
    ∀ place, ∃ place', value fuel (depth + 1) ⟨ws ++ (x ++ rest), place⟩ = .ok (v, ⟨rest, place'⟩)
  items : ∀ {depth first cs vs}, Itemizes depth first cs vs → cs.length < fuel → ∀ rest place,
    ∃ place', items fuel (depth + 1) first ⟨cs ++ ']' :: rest, place⟩ =
      .ok (vs, ⟨']' :: rest, place'⟩)
  members : ∀ {depth first cs ms}, Assigns depth first cs ms → cs.length < fuel →
    ∀ acc rest place, ∃ place', members fuel (depth + 1) first acc ⟨cs ++ '\x7d' :: rest, place⟩ =
      .ok (ms.foldl (fun acc kv => insert kv.1 kv.2 acc) acc, ⟨'\x7d' :: rest, place'⟩)

theorem exists_value_blanks {ws : List Char} {y : Char} (hws : Blanks ws)
    (hy : Cursor.isBlank y = false) (fuel depth : Nat) (rest : List Char) (place : Place) :
    ∃ place', value (fuel + 1) depth ⟨ws ++ y :: rest, place⟩ =
      value (fuel + 1) depth ⟨y :: rest, place'⟩ := by
  obtain ⟨place', hskip⟩ := Cursor.exists_skipBlanks hws hy rest place
  refine ⟨place', ?_⟩
  simp only [value, hskip, Cursor.skipBlanks_cons hy]

theorem Understood.value_succ (ih : Understood fuel) {ws : List Char} (hws : Blanks ws)
    (h : Means depth x v) (hf : x.length ≤ fuel + 1) (hr : Ends rest) (place : Place) :
    ∃ place', Json.value (fuel + 1) (depth + 1) ⟨ws ++ (x ++ rest), place⟩ =
      .ok (v, ⟨rest, place'⟩) := by
  obtain ⟨y, ys, rfl, hblank, -⟩ := h.begins
  obtain ⟨place₁, hskip⟩ := exists_value_blanks hws hblank fuel (depth + 1) (ys ++ rest) place
  rw [List.cons_append, hskip]
  generalize hx : y :: ys = x at h
  cases h with
  | null =>
      cases hx
      exact reads_value_null fuel (depth + 1) rest place₁ hr
  | bool b =>
      have hread := reads_value_bool b fuel (depth + 1) rest place₁ hr
      cases b <;> cases hx <;> exact hread
  | @num _ w cs negative n h htext hn =>
      have hread := reads_value_of_isText h htext negative fuel (depth + 1) rest place₁ hr
      rw [hn, ← hx] at hread
      exact hread
  | str h =>
      obtain ⟨text, htext, rfl⟩ := h
      cases hx
      obtain ⟨place', hstring⟩ := exists_stringRest_of_spells htext rest (Cursor.after place₁ '"')
      refine ⟨place', ?_⟩
      rw [List.append_assoc, value_scalar fuel _ _ place₁ rfl (by decide) (by decide)]
      change (stringRest ⟨text ++ '"' :: rest, Cursor.after place₁ '"'⟩ >>= _) = _
      rw [hstring]
      rfl
  | @arr depth cs vs h =>
      cases hx
      have hlength : cs.length < fuel := by
        simp only [List.length_cons, List.length_append] at hf
        omega
      obtain ⟨place₂, hitems⟩ := ih.items h hlength rest (Cursor.after place₁ '[')
      refine ⟨Cursor.after place₂ ']', ?_⟩
      rw [List.append_assoc]
      change (Json.items fuel (depth + 1) true ⟨cs ++ ']' :: rest, Cursor.after place₁ '['⟩ >>= _) = _
      rw [hitems]
      rfl
  | @obj depth cs ms h =>
      cases hx
      have hlength : cs.length < fuel := by
        simp only [List.length_cons, List.length_append] at hf
        omega
      obtain ⟨place₂, hmembers⟩ := ih.members h hlength [] rest (Cursor.after place₁ '\x7b')
      refine ⟨Cursor.after place₂ '\x7d', ?_⟩
      rw [List.append_assoc]
      change (Json.members fuel (depth + 1) true []
        ⟨cs ++ '\x7d' :: rest, Cursor.after place₁ '\x7b'⟩ >>= _) = _
      rw [hmembers]
      rfl

theorem Understood.items_succ (ih : Understood fuel) (h : Itemizes depth first cs vs)
    (hf : cs.length < fuel + 1) (rest : List Char) (place : Place) :
    ∃ place', Json.items (fuel + 1) (depth + 1) first ⟨cs ++ ']' :: rest, place⟩ =
      .ok (vs, ⟨']' :: rest, place'⟩) := by
  cases h with
  | done hws =>
      obtain ⟨place', hmore⟩ := exists_moreItems_end hws first rest place
      refine ⟨place', ?_⟩
      rw [Json.items, hmore]
      rfl
  | @next _ _ s x cs v vs hs hx h =>
      obtain ⟨y, ys, rfl, hblank, hend⟩ := hx.begins
      simp only [List.length_append, List.length_cons] at hf
      obtain ⟨place₁, hmore⟩ := exists_moreItems hs hblank hend (ys ++ (cs ++ ']' :: rest)) place
      obtain ⟨place₂, hvalue⟩ :=
        ih.value blanks_nil hx (by simp; omega) (h.ends rest) place₁
      obtain ⟨place₃, hitems⟩ := ih.items h (by omega) rest place₂
      refine ⟨place₃, ?_⟩
      rw [List.nil_append, List.cons_append] at hvalue
      rw [List.append_assoc, List.append_assoc, List.cons_append, Json.items, hmore, ok_bind]
      dsimp only
      rw [if_pos rfl, hvalue, ok_bind]
      dsimp only
      rw [hitems]
      rfl

theorem Understood.members_succ (ih : Understood fuel) (h : Assigns depth first cs ms)
    (hf : cs.length < fuel + 1) (acc : List (String × Json)) (rest : List Char) (place : Place) :
    ∃ place', Json.members (fuel + 1) (depth + 1) first acc ⟨cs ++ '\x7d' :: rest, place⟩ =
      .ok (ms.foldl (fun acc kv => insert kv.1 kv.2 acc) acc, ⟨'\x7d' :: rest, place'⟩) := by
  cases h with
  | done hws =>
      obtain ⟨place', hmore⟩ := exists_moreMembers_end hws first rest place
      refine ⟨place', ?_⟩
      rw [Json.members, hmore]
      rfl
  | @next _ _ s label x cs k v ms hs hk hx h =>
      obtain ⟨text, ws, ws', htext, hws, hws', rfl⟩ := hk
      simp only [List.length_append, List.length_cons] at hf
      obtain ⟨place₁, hmore⟩ := exists_moreMembers hs
        (text ++ '"' :: (ws ++ ':' :: (ws' ++ (x ++ (cs ++ '\x7d' :: rest))))) place
      obtain ⟨place₂, hkey⟩ := exists_stringRest_of_spells htext
        (ws ++ ':' :: (ws' ++ (x ++ (cs ++ '\x7d' :: rest)))) (Cursor.after place₁ '"')
      obtain ⟨place₃, hcolon⟩ := exists_colon hws (ws' ++ (x ++ (cs ++ '\x7d' :: rest))) place₂
      obtain ⟨place₄, hvalue⟩ := ih.value hws' hx (by omega) (h.ends rest) place₃
      obtain ⟨place₅, hmembers⟩ := ih.members h (by omega) (insert k v acc) rest place₄
      refine ⟨place₅, ?_⟩
      simp only [List.append_assoc, List.cons_append]
      rw [Json.members, hmore, ok_bind]
      dsimp only
      rw [if_pos rfl, Cursor.advance_cons, hkey, ok_bind]
      dsimp only
      rw [hcolon, ok_bind, hvalue, ok_bind]
      exact hmembers

theorem understood (fuel : Nat) : Understood fuel := by
  induction fuel with
  | zero =>
      constructor
      · intro depth ws x v rest _ hx hf
        obtain ⟨y, ys, rfl, -⟩ := hx.begins
        cases hf
      · intro depth first cs vs _ hf
        cases hf
      · intro depth first cs ms _ hf
        cases hf
  | succ fuel ih => exact ⟨ih.value_succ, ih.items_succ, ih.members_succ⟩

/-! ### Documents -/

/-- A whole text for a value, with blanks around it. -/
def IsDocument (cs : List Char) (v : Json) : Prop :=
  ∃ ws x ws', Blanks ws ∧ Blanks ws' ∧ cs = ws ++ (x ++ ws') ∧ Means (maxDepth - 1) x v

/-- A text is read as a value if it is a document of it, and not otherwise. -/
theorem ofString?_eq_some_iff {s : String} : ofString? s = some v ↔ IsDocument s.toList v := by
  rw [ofString?, ← eq_ok_iff_toOption, ofString, ofStringDepth]
  constructor
  · intro h
    obtain ⟨⟨v', c⟩, hvalue, h⟩ := bind_eq_ok_iff.1 h
    obtain ⟨u, hend, h⟩ := bind_eq_ok_iff.1 h
    cases h
    obtain ⟨ws, x, hws, hx, hrest⟩ := (understands _).value hvalue
    exact ⟨ws, x, c.rest, hws, exists_of_atEnd hend, hrest, hx⟩
  · rintro ⟨ws, x, ws', hws, hws', hs, hx⟩
    have hlength : x.length ≤ fuelFor (Cursor.ofString s) := by
      simp only [fuelFor, Cursor.ofString, hs, List.length_append]
      omega
    obtain ⟨place', hvalue⟩ := (understood (fuelFor (Cursor.ofString s))).value hws hx
      hlength hws'.ends ⟨1, 0⟩
    rw [← hs] at hvalue
    change (value (fuelFor (Cursor.ofString s)) (maxDepth - 1 + 1) ⟨s.toList, ⟨1, 0⟩⟩ >>= _) = _
    rw [hvalue, ok_bind]
    dsimp only
    rw [atEnd_of_blanks hws']
    rfl

end SqlGate.Json
