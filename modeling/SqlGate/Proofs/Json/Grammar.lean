import Mathlib.Data.List.TakeWhile
import SqlGate.Json.Typed
import SqlGate.Proofs.Json.Scalars

/-!
# The language of JSON

What a JSON text is, said without a reader: `Parses` is the grammar of values, and `Spells` is what
the characters between the quotes of a string stand for. A value that is skipped is one of the
grammar, and every one is skipped (`exists_of_skip`, `exists_skip`); a string that is read is one
that spells something (`exists_of_stringRest`, `exists_stringRest_of_spells`). The grammar is the
wider one of the two: half of a surrogate pair is an escape, but spells nothing.

The end of a numeral is where no more of it follows, so what comes after a value matters when it is
read (`Ends`), and does not when it has been read.
-/

namespace SqlGate.Json

variable {c c' : Cursor} {cs ds rest text : List Char} {place : Place} {fuel : Nat}

/-! ## The grammar -/

/-- Nothing but blanks. -/
def Blanks (ws : List Char) : Prop := ∀ c ∈ ws, Cursor.isBlank c = true

/-- Four hexadecimal digits, and their number. -/
inductive Hex : List Char → Nat → Prop where
  | four {a b c d : Char} {w x y z : Nat} (ha : Text.Hex.digit? a = some w)
    (hb : Text.Hex.digit? b = some x) (hc : Text.Hex.digit? c = some y)
    (hd : Text.Hex.digit? d = some z) : Hex [a, b, c, d] (((w * 16 + x) * 16 + y) * 16 + z)

/-- The letters of the escapes that have one, with the characters that these stand for. -/
def namedEscapes : List (Char × Char) :=
  [('"', '"'), ('\\', '\\'), ('/', '/'), ('b', Char.ofNat 8), ('f', Char.ofNat 12), ('n', '\n'),
    ('r', '\r'), ('t', '\t')]

/-- A character that stands for itself in a string. -/
structure IsPlain (c : Char) : Prop where
  quote : c ≠ '"'
  backslash : c ≠ '\\'
  control : 32 ≤ c.toNat

/-- What follows the backslash of an escape, and the character that it stands for. -/
inductive Escapes : List Char → Char → Prop where
  | named {e x : Char} (h : (e, x) ∈ namedEscapes) : Escapes [e] x
  | unicode {ds : List Char} {n : Nat} (h : Hex ds n) (hn : n < 0xD800 ∨ 0xDFFF < n) :
    Escapes ('u' :: ds) (Char.ofNat n)
  | pair {ds ds' : List Char} {n m : Nat} (h : Hex ds n) (hn : 0xD800 ≤ n ∧ n ≤ 0xDBFF)
    (h' : Hex ds' m) (hm : 0xDC00 ≤ m ∧ m ≤ 0xDFFF) :
    Escapes ('u' :: (ds ++ '\\' :: 'u' :: ds'))
      (Char.ofNat ((n - 0xD800) * 1024 + (m - 0xDC00) + 0x10000))

/-- What stands between the quotes of a string, and the characters that it stands for. -/
inductive Spells : List Char → List Char → Prop where
  | nil : Spells [] []
  | plain {x : Char} {text cs : List Char} (hx : IsPlain x) (h : Spells text cs) :
    Spells (x :: text) (x :: cs)
  | escape {e : List Char} {x : Char} {text cs : List Char} (he : Escapes e x)
    (h : Spells text cs) : Spells ('\\' :: (e ++ text)) (x :: cs)

/-- What stands between the quotes of a string by syntax alone. -/
inductive IsBody : List Char → Prop where
  | nil : IsBody []
  | plain {x : Char} {text : List Char} (hx : IsPlain x) (h : IsBody text) : IsBody (x :: text)
  | named {e x : Char} {text : List Char} (he : (e, x) ∈ namedEscapes) (h : IsBody text) :
    IsBody ('\\' :: e :: text)
  | unicode {ds : List Char} {n : Nat} {text : List Char} (hds : Hex ds n) (h : IsBody text) :
    IsBody ('\\' :: 'u' :: (ds ++ text))

namespace Numeral

/-- The digits before the point. -/
def IsWhole (cs : List Char) : Prop := cs = ['0'] ∨ IsRun cs ∧ cs.head? ≠ some '0'

/-- The point and the digits after it, or nothing. -/
def IsFraction (cs : List Char) : Prop := cs = [] ∨ ∃ ds, IsRun ds ∧ cs = '.' :: ds

/-- The letter of the exponent, its sign and its digits, or nothing. -/
def IsExponent (cs : List Char) : Prop :=
  cs = [] ∨ ∃ e sign ds, (e = 'e' ∨ e = 'E') ∧ (sign = [] ∨ sign = ['+'] ∨ sign = ['-']) ∧
    IsRun ds ∧ cs = e :: (sign ++ ds)

/-- A numeral without its sign. -/
def IsUnsigned (cs : List Char) : Prop :=
  ∃ whole part exponent, IsWhole whole ∧ IsFraction part ∧ IsExponent exponent ∧
    cs = whole ++ (part ++ exponent)

end Numeral

/-- What stands before an item or a member: blanks, and a comma if it is not the first one. -/
def Separates : Bool → List Char → Prop
  | true, s => Blanks s
  | false, s => ∃ ws ws', Blanks ws ∧ Blanks ws' ∧ s = ws ++ ',' :: ws'

/-- What stands before the value of a member: a key whose characters are of a kind, and the colon. -/
def Labels (body : List Char → Prop) (k : List Char) : Prop :=
  ∃ text ws ws', body text ∧ Blanks ws ∧ Blanks ws' ∧ k = '"' :: (text ++ '"' :: (ws ++ ':' :: ws'))

/-- The parts that a JSON text has: values, and what is left of what stands between brackets or
braces, from its first item or member on or after some of them. -/
inductive Part where
  | value
  | items (first : Bool)
  | members (first : Bool)

/-- The grammar. -/
inductive Parses : Part → List Char → Prop where
  | null : Parses .value ['n', 'u', 'l', 'l']
  | true : Parses .value ['t', 'r', 'u', 'e']
  | false : Parses .value ['f', 'a', 'l', 's', 'e']
  | unsigned {cs : List Char} (h : Numeral.IsUnsigned cs) : Parses .value cs
  | negative {cs : List Char} (h : Numeral.IsUnsigned cs) : Parses .value ('-' :: cs)
  | string {text : List Char} (h : IsBody text) : Parses .value ('"' :: (text ++ ['"']))
  | array {xs : List Char} (h : Parses (.items .true) xs) : Parses .value ('[' :: (xs ++ [']']))
  | object {ms : List Char} (h : Parses (.members .true) ms) :
    Parses .value ('\x7b' :: (ms ++ ['\x7d']))
  | noItems {first : Bool} {ws : List Char} (h : Blanks ws) : Parses (.items first) ws
  | item {first : Bool} {s x xs : List Char} (hs : Separates first s) (hx : Parses .value x)
    (h : Parses (.items .false) xs) : Parses (.items first) (s ++ (x ++ xs))
  | noMembers {first : Bool} {ws : List Char} (h : Blanks ws) : Parses (.members first) ws
  | member {first : Bool} {s k v ms : List Char} (hs : Separates first s) (hk : Labels IsBody k)
    (hv : Parses .value v) (h : Parses (.members .false) ms) :
    Parses (.members first) (s ++ (k ++ (v ++ ms)))

theorem blanks_nil : Blanks [] := List.forall_mem_nil _

theorem Blanks.append {ws ws' : List Char} (h : Blanks ws) (h' : Blanks ws') :
    Blanks (ws ++ ws') :=
  List.forall_mem_append.2 ⟨h, h'⟩

/-! ## Steps of a cursor -/

namespace Cursor

theorem rest_of_peek? {x : Char} (h : c.peek? = some x) : c.rest = x :: c.advance.rest := by
  obtain ⟨rest, place⟩ := c
  cases rest with
  | nil => cases h
  | cons y rest =>
      cases h
      rfl

theorem exists_blanks (c : Cursor) : ∃ ws, Blanks ws ∧ c.rest = ws ++ c.skipBlanks.rest :=
  ⟨c.rest.takeWhile isBlank, fun _ h => List.mem_takeWhile_imp h,
    (List.takeWhile_append_dropWhile).symm⟩

theorem rest_of_word {ws : List Char} (h : word ws c = .ok c') : c.rest = ws ++ c'.rest := by
  induction ws generalizing c with
  | nil =>
      cases h
      rfl
  | cons w ws ih =>
      unfold word at h
      split at h
      · cases h
      · next x hx =>
          split_ifs at h with hw
          subst hw
          rw [rest_of_peek? hx, ih h, List.cons_append]

end Cursor

/-! ## What is skipped is of the grammar -/

theorem isDigit_of_digitValue? {x : Char} (h : (digitValue? x).isSome) : x.isDigit := by
  unfold digitValue? at h
  split_ifs at h with hx
  · simp only [Char.isDigit, Bool.and_eq_true, decide_eq_true_eq]
    exact hx
  · cases h

namespace Numeral

open Typed

/-- The cursor after the point and the digits after it, where there is a point. -/
def skipFraction (c : Cursor) : Except Fault Cursor :=
  if c.peek? = some '.' then
    match digitRun c.advance with
    | ([], c) => .error (c.failPeek .invalidNumber)
    | (_, c) => .ok c
  else .ok c

/-- The cursor after an exponent, where there is one. -/
def skipExponent (c : Cursor) : Except Fault Cursor :=
  if atExponent c then
    let c := c.advance
    let c := if c.peek? = some '+' ∨ c.peek? = some '-' then c.advance else c
    match digitRun c with
    | ([], c) => .error (c.advance.fail .invalidNumber)
    | (_, c) => .ok c
  else .ok c

theorem skipNumeral_eq (c : Cursor) {x : Char} (hx : c.peek? = some x)
    (h : (digitValue? x).isSome) : skipNumeral c =
      let c' := if x = '0' then c.advance else (digitRun c).2
      if x = '0' ∧ (c'.peek?.bind digitValue?).isSome then .error (c'.failPeek .invalidNumber)
      else skipFraction c' >>= skipExponent := by
  have hnone : ¬(digitValue? x).isNone := by simpa using Option.isSome_iff_ne_none.1 h
  simp only [skipNumeral, hx, if_neg hnone]
  by_cases hzero : x = '0'
  · simp only [if_pos hzero]
    rfl
  · simp only [if_neg hzero]
    rfl

theorem exists_of_digitRun (c : Cursor) : ∃ run, (∀ x ∈ run, x.isDigit) ∧
    c.rest = run ++ (digitRun c).2.rest ∧ (digitRun c).1 = values run ∧
    run.head? = c.peek?.filter fun x => (digitValue? x).isSome := by
  have hdigits : ∀ x ∈ c.rest.takeWhile (fun x => (digitValue? x).isSome), x.isDigit :=
    fun x hx => isDigit_of_digitValue?
      (List.mem_takeWhile_imp (p := fun x => (digitValue? x).isSome) hx)
  exact ⟨_, hdigits, (List.prefix_iff_eq_append.1 (List.takeWhile_prefix _)).symm,
    filterMap_digitValue? hdigits, List.head?_takeWhile⟩

/-- Digits that are asked for are there. -/
theorem exists_run {ds : List Nat} (h : digitRun c = (ds, c')) (hds : ds ≠ []) :
    ∃ run, IsRun run ∧ c.rest = run ++ c'.rest ∧ ds = values run := by
  obtain ⟨run, hdigits, hrest, hvalues, -⟩ := exists_of_digitRun c
  rw [h] at hrest hvalues
  refine ⟨run, ⟨?_, hdigits⟩, hrest, hvalues⟩
  rintro rfl
  exact hds hvalues

/-- Where a digit comes first there is a run of them. -/
theorem exists_run_of_peek? {vs : List Nat} {x : Char} (h : digitRun c = (vs, c'))
    (hx : c.peek? = some x) (hdigit : (digitValue? x).isSome) :
    ∃ run, IsRun run ∧ c.rest = run ++ c'.rest ∧ vs = values run ∧ run.head? = some x := by
  obtain ⟨run, hdigits, hrest, hvalues, hhead⟩ := exists_of_digitRun c
  rw [hx, Option.filter_some, if_pos hdigit] at hhead
  rw [h] at hrest hvalues
  refine ⟨run, ⟨?_, hdigits⟩, hrest, hvalues, hhead⟩
  rintro rfl
  cases hhead

theorem exists_of_skipFraction (h : skipFraction c = .ok c') :
    ∃ part, IsFraction part ∧ c.rest = part ++ c'.rest := by
  unfold skipFraction at h
  split_ifs at h with hpoint
  · split at h
    · cases h
    · next hds hrun =>
        cases h
        obtain ⟨run, hrun, hrest, -⟩ := exists_run hrun hds
        exact ⟨'.' :: run, .inr ⟨run, hrun, rfl⟩, by rw [Cursor.rest_of_peek? hpoint, hrest]; rfl⟩
  · cases h
    exact ⟨[], .inl rfl, rfl⟩

theorem exists_of_atExponent (h : atExponent c = true) :
    ∃ e, (e = 'e' ∨ e = 'E') ∧ c.rest = e :: c.advance.rest := by
  rcases (by simpa [atExponent] using h : c.peek? = some 'e' ∨ c.peek? = some 'E') with hx | hx
  · exact ⟨_, .inl rfl, Cursor.rest_of_peek? hx⟩
  · exact ⟨_, .inr rfl, Cursor.rest_of_peek? hx⟩

theorem exists_of_skipExponent (h : skipExponent c = .ok c') :
    ∃ exponent, IsExponent exponent ∧ c.rest = exponent ++ c'.rest := by
  unfold skipExponent at h
  split_ifs at h with hletter
  · obtain ⟨e, he, hrest⟩ := exists_of_atExponent hletter
    obtain ⟨sign, hsign, hrest'⟩ : ∃ sign, (sign = [] ∨ sign = ['+'] ∨ sign = ['-']) ∧
        c.advance.rest = sign ++ (if c.advance.peek? = some '+' ∨ c.advance.peek? = some '-' then
          c.advance.advance else c.advance).rest := by
      split_ifs with hx
      · rcases hx with hx | hx
        · exact ⟨_, .inr (.inl rfl), Cursor.rest_of_peek? hx⟩
        · exact ⟨_, .inr (.inr rfl), Cursor.rest_of_peek? hx⟩
      · exact ⟨[], .inl rfl, rfl⟩
    dsimp only at h
    split at h
    · cases h
    · next hds hrun =>
        cases h
        obtain ⟨run, hrun, hdigits, -⟩ := exists_run hrun hds
        refine ⟨e :: (sign ++ run), .inr ⟨e, sign, run, he, hsign, hrun, rfl⟩, ?_⟩
        rw [hrest, hrest', hdigits, List.cons_append, List.append_assoc]
  · cases h
    exact ⟨[], .inl rfl, rfl⟩

/-- A skipped numeral is one. -/
theorem exists_of_skipNumeral (h : skipNumeral c = .ok c') :
    ∃ cs, IsUnsigned cs ∧ c.rest = cs ++ c'.rest := by
  obtain ⟨x, hx⟩ : ∃ x, c.peek? = some x := by
    cases hx : c.peek? with
    | none => simp [skipNumeral, hx] at h
    | some x => exact ⟨x, rfl⟩
  have hdigit : (digitValue? x).isSome := by
    by_contra hnone
    simp [skipNumeral, hx, Option.not_isSome_iff_eq_none.1 hnone] at h
  have hcons := Cursor.rest_of_peek? hx
  rw [skipNumeral_eq c hx hdigit] at h
  dsimp only at h
  obtain ⟨whole, hwhole, hrest⟩ : ∃ whole, IsWhole whole ∧
      c.rest = whole ++ (if x = '0' then c.advance else (digitRun c).2).rest := by
    split_ifs with hzero
    · subst hzero
      exact ⟨['0'], .inl rfl, hcons⟩
    · obtain ⟨run, hrun, hrest, -, hhead⟩ := exists_run_of_peek? rfl hx hdigit
      refine ⟨run, .inr ⟨hrun, ?_⟩, hrest⟩
      rw [hhead]
      simpa using hzero
  generalize (if x = '0' then c.advance else (digitRun c).2) = c₁ at h hrest
  split_ifs at h with hmore
  obtain ⟨c₂, hpart, hexponent⟩ := bind_eq_ok_iff.1 h
  obtain ⟨part, hpart, hrest₁⟩ := exists_of_skipFraction hpart
  obtain ⟨exponent, hexponent, hrest₂⟩ := exists_of_skipExponent hexponent
  refine ⟨_, ⟨whole, part, exponent, hwhole, hpart, hexponent, rfl⟩, ?_⟩
  rw [hrest, hrest₁, hrest₂, List.append_assoc, List.append_assoc]

end Numeral

theorem exists_of_colon (h : colon c = .ok c') :
    ∃ ws, Blanks ws ∧ c.rest = ws ++ ':' :: c'.rest := by
  obtain ⟨ws, hws, hrest⟩ := c.exists_blanks
  unfold colon at h
  dsimp only at h
  split at h
  · cases h
  · next x hx =>
      split_ifs at h with hcolon
      cases h
      exact ⟨ws, hws, by rw [hrest, Cursor.rest_of_peek? hx, hcolon]⟩

theorem rest_of_needChar {x : Char} (h : needChar c = .ok (x, c')) : c.rest = x :: c'.rest := by
  unfold needChar at h
  split at h
  · cases h
  · next y hy =>
      cases h
      exact Cursor.rest_of_peek? hy

theorem exists_of_hexEscape {n : Nat} (h : hexEscape c = .ok (n, c')) :
    ∃ ds, Hex ds n ∧ c.rest = ds ++ c'.rest := by
  unfold hexEscape at h
  split_ifs at h
  split at h
  · next w x y z hdigits =>
      cases h
      simp only [List.map_eq_cons_iff, List.map_eq_nil_iff] at hdigits
      obtain ⟨a, _, htake, ha, b, _, rfl, hb, c₂, _, rfl, hc, d, _, rfl, hd, rfl⟩ := hdigits
      refine ⟨[a, b, c₂, d], .four ha hb hc hd, ?_⟩
      rw [← htake, List.take_append_drop]
  · cases h

theorem isNamed_iff {e : Char} :
    "\"\\/bfnrt".toList.contains e = true ↔ ∃ x, (e, x) ∈ namedEscapes := by
  simp [namedEscapes, exists_or]

namespace Typed

theorem exists_of_skipString (h : skipString fuel c = .ok c') :
    ∃ text, IsBody text ∧ c.rest = text ++ '"' :: c'.rest := by
  induction fuel generalizing c with
  | zero => cases h
  | succ fuel ih =>
      unfold skipString at h
      split at h
      · cases h
      · next x hx =>
          have hcons := Cursor.rest_of_peek? hx
          split_ifs at h with hquote hback hcontrol
          · subst hquote
            cases h
            exact ⟨[], .nil, hcons⟩
          · subst hback
            obtain ⟨⟨e, c₁⟩, he, h⟩ := bind_eq_ok_iff.1 h
            have hescape := rest_of_needChar he
            dsimp only at h
            split_ifs at h with hnamed hu
            · obtain ⟨x, hx⟩ := isNamed_iff.1 hnamed
              obtain ⟨text, htext, hrest⟩ := ih h
              exact ⟨_, .named hx htext, by rw [hcons, hescape, hrest]; rfl⟩
            · subst hu
              obtain ⟨⟨n, c₂⟩, hhex, h⟩ := bind_eq_ok_iff.1 h
              obtain ⟨ds, hds, hdigits⟩ := exists_of_hexEscape hhex
              obtain ⟨text, htext, hrest⟩ := ih h
              refine ⟨_, .unicode hds htext, ?_⟩
              rw [hcons, hescape, hdigits, hrest]
              simp
          · obtain ⟨text, htext, hrest⟩ := ih h
            exact ⟨x :: text, .plain ⟨hquote, hback, Nat.not_lt.1 hcontrol⟩ htext,
              by rw [hcons, hrest]; rfl⟩

/-- What skipping some parts comes to, as far as the fuel goes. -/
structure Skips (fuel : Nat) : Prop where
  value : ∀ {c c'}, skip fuel c = .ok c' →
    ∃ ws x, Blanks ws ∧ Parses .value x ∧ c.rest = ws ++ (x ++ c'.rest)
  items : ∀ {c c'}, skipItems fuel c = .ok c' →
    ∃ ws x xs, Blanks ws ∧ Parses .value x ∧ Parses (.items false) xs ∧
      c.rest = ws ++ (x ++ (xs ++ ']' :: c'.rest))
  members : ∀ {c c'}, skipMembers fuel c = .ok c' →
    ∃ ws k v ms, Blanks ws ∧ Labels IsBody k ∧ Parses .value v ∧ Parses (.members false) ms ∧
      c.rest = ws ++ (k ++ (v ++ (ms ++ '\x7d' :: c'.rest)))

theorem exists_of_scalar {x : Char} {v : Json} (hx : c.peek? = some x) (hquote : x ≠ '"')
    (hminus : x ≠ '-') (hdigit : ¬(digitValue? x).isSome) (h : scalar x c = .ok (v, c')) :
    ∃ text, Parses .value text ∧ c.rest = text ++ c'.rest := by
  have hcons := Cursor.rest_of_peek? hx
  unfold scalar at h
  split_ifs at h with hn ht hf
  · obtain ⟨c₁, hword, h⟩ := bind_eq_ok_iff.1 h
    cases h
    exact ⟨_, .null, by rw [hcons, hn, Cursor.rest_of_word hword]; rfl⟩
  · obtain ⟨c₁, hword, h⟩ := bind_eq_ok_iff.1 h
    cases h
    exact ⟨_, .true, by rw [hcons, ht, Cursor.rest_of_word hword]; rfl⟩
  · obtain ⟨c₁, hword, h⟩ := bind_eq_ok_iff.1 h
    cases h
    exact ⟨_, .false, by rw [hcons, hf, Cursor.rest_of_word hword]; rfl⟩

theorem Skips.value_succ (ih : Skips fuel) (h : skip (fuel + 1) c = .ok c') :
    ∃ ws x, Blanks ws ∧ Parses .value x ∧ c.rest = ws ++ (x ++ c'.rest) := by
  obtain ⟨ws, hws, hrest⟩ := c.exists_blanks
  suffices ∃ x, Parses .value x ∧ c.skipBlanks.rest = x ++ c'.rest by
    obtain ⟨x, hx, hrest'⟩ := this
    exact ⟨ws, x, hws, hx, by rw [hrest, hrest']⟩
  unfold skip at h
  dsimp only at h
  generalize c.skipBlanks = c₁ at h
  split at h
  · cases h
  · next x hx =>
      have hcons := Cursor.rest_of_peek? hx
      obtain ⟨ws', hws', hinner⟩ := c₁.advance.exists_blanks
      split_ifs at h with hbracket hend heof hbrace hend hquote hminus hdigit
      · cases h
        refine ⟨'[' :: (ws' ++ [']']), .array (.noItems hws'), ?_⟩
        rw [hcons, hbracket, hinner, Cursor.rest_of_peek? hend]
        simp
      · obtain ⟨ws₂, y, ys, hws₂, hy, hys, hitems⟩ := ih.items h
        refine ⟨_, .array (.item (show Separates true _ from hws'.append hws₂) hy hys), ?_⟩
        rw [hcons, hbracket, hinner, hitems]
        simp
      · cases h
        refine ⟨'\x7b' :: (ws' ++ ['\x7d']), .object (.noMembers hws'), ?_⟩
        rw [hcons, hbrace, hinner, Cursor.rest_of_peek? hend]
        simp
      · obtain ⟨ws₂, k, v, ms, hws₂, hk, hv, hms, hmembers⟩ := ih.members h
        refine ⟨_, .object (.member (show Separates true _ from hws'.append hws₂) hk hv hms), ?_⟩
        rw [hcons, hbrace, hinner, hmembers]
        simp
      · obtain ⟨text, htext, hstring⟩ := exists_of_skipString h
        exact ⟨_, .string htext, by rw [hcons, hquote, hstring]; simp⟩
      · obtain ⟨cs, hcs, hnumeral⟩ := Numeral.exists_of_skipNumeral h
        exact ⟨_, .negative hcs, by rw [hcons, hminus, hnumeral]; rfl⟩
      · obtain ⟨cs, hcs, hnumeral⟩ := Numeral.exists_of_skipNumeral h
        exact ⟨_, .unsigned hcs, hnumeral⟩
      · cases hscalar : scalar x c₁ with
        | error why =>
            rw [hscalar] at h
            cases h
        | ok r =>
            rw [hscalar] at h
            cases h
            exact exists_of_scalar hx hquote hminus hdigit hscalar

theorem Skips.items_succ (ih : Skips fuel) (h : skipItems (fuel + 1) c = .ok c') :
    ∃ ws x xs, Blanks ws ∧ Parses .value x ∧ Parses (.items false) xs ∧
      c.rest = ws ++ (x ++ (xs ++ ']' :: c'.rest)) := by
  unfold skipItems at h
  obtain ⟨c₁, hitem, h⟩ := bind_eq_ok_iff.1 h
  obtain ⟨ws, x, hws, hx, hrest⟩ := ih.value hitem
  suffices ∃ xs, Parses (.items false) xs ∧ c₁.rest = xs ++ ']' :: c'.rest by
    obtain ⟨xs, hxs, hrest'⟩ := this
    exact ⟨ws, x, xs, hws, hx, hxs, by rw [hrest, hrest']⟩
  obtain ⟨ws', hws', hafter⟩ := c₁.exists_blanks
  dsimp only at h
  generalize c₁.skipBlanks = c₂ at h hafter
  split at h
  · cases h
  · next y hy =>
      have hcons := Cursor.rest_of_peek? hy
      split_ifs at h with hcomma hend
      · obtain ⟨ws₂, z, xs, hws₂, hz, hxs, hitems⟩ := ih.items h
        refine ⟨_, .item (show Separates false _ from ⟨ws', ws₂, hws', hws₂, rfl⟩) hz hxs, ?_⟩
        rw [hafter, hcons, hcomma, hitems]
        simp
      · cases h
        exact ⟨ws', .noItems hws', by rw [hafter, hcons, hend]⟩

theorem Skips.members_succ (ih : Skips fuel) (h : skipMembers (fuel + 1) c = .ok c') :
    ∃ ws k v ms, Blanks ws ∧ Labels IsBody k ∧ Parses .value v ∧ Parses (.members false) ms ∧
      c.rest = ws ++ (k ++ (v ++ (ms ++ '\x7d' :: c'.rest))) := by
  obtain ⟨ws, hws, hrest⟩ := c.exists_blanks
  unfold skipMembers at h
  dsimp only at h
  generalize c.skipBlanks = c₁ at h hrest
  split at h
  · cases h
  · next x hx =>
      have hcons := Cursor.rest_of_peek? hx
      split_ifs at h with hquote
      obtain ⟨c₂, hkey, h⟩ := bind_eq_ok_iff.1 h
      obtain ⟨c₃, hcolon, h⟩ := bind_eq_ok_iff.1 h
      obtain ⟨c₄, hvalue, h⟩ := bind_eq_ok_iff.1 h
      obtain ⟨text, htext, hstring⟩ := exists_of_skipString hkey
      obtain ⟨ws₁, hws₁, hcolon⟩ := exists_of_colon hcolon
      obtain ⟨ws₂, v, hws₂, hv, hvalue⟩ := ih.value hvalue
      suffices ∃ ms, Parses (.members false) ms ∧ c₄.rest = ms ++ '\x7d' :: c'.rest by
        obtain ⟨ms, hms, hrest'⟩ := this
        refine ⟨ws, _, v, ms, hws, ⟨text, ws₁, ws₂, htext, hws₁, hws₂, rfl⟩, hv, hms, ?_⟩
        rw [hrest, hcons, not_not.1 hquote, hstring, hcolon, hvalue, hrest']
        simp
      obtain ⟨ws', hws', hafter⟩ := c₄.exists_blanks
      generalize c₄.skipBlanks = c₅ at h hafter
      split at h
      · cases h
      · next y hy =>
          have hcons := Cursor.rest_of_peek? hy
          split_ifs at h with hcomma hend
          · obtain ⟨ws₃, k, u, ms, hws₃, hk, hu, hms, hmembers⟩ := ih.members h
            refine ⟨_, .member (show Separates false _ from ⟨ws', ws₃, hws', hws₃, rfl⟩) hk hu hms, ?_⟩
            rw [hafter, hcons, hcomma, hmembers]
            simp
          · cases h
            exact ⟨ws', .noMembers hws', by rw [hafter, hcons, hend]⟩

theorem skips (fuel : Nat) : Skips fuel := by
  induction fuel with
  | zero =>
      constructor
      · intro c c' h
        cases h
      · intro c c' h
        cases h
      · intro c c' h
        cases h
  | succ fuel ih => exact ⟨ih.value_succ, ih.items_succ, ih.members_succ⟩

/-- What is skipped is a value, after blanks. -/
theorem exists_of_skip (h : skip fuel c = .ok c') :
    ∃ ws x, Blanks ws ∧ Parses .value x ∧ c.rest = ws ++ (x ++ c'.rest) :=
  (skips fuel).value h

end Typed

/-! ## What is of the grammar is skipped -/

theorem Cursor.exists_skipBlanks {ws : List Char} {x : Char} (h : Blanks ws)
    (hx : Cursor.isBlank x = false) (rest : List Char) (place : Place) :
    ∃ place', Cursor.skipBlanks ⟨ws ++ x :: rest, place⟩ = ⟨x :: rest, place'⟩ := by
  refine ⟨Cursor.placeAfter place ((ws ++ x :: rest).takeWhile Cursor.isBlank), ?_⟩
  unfold Cursor.skipBlanks
  rw [List.dropWhile_append_of_pos h, List.dropWhile_cons_of_neg (by simp [hx])]

theorem continuesNumeral_of_isBlank {w : Char} (h : Cursor.isBlank w = true) :
    continuesNumeral w = false := by
  simp only [Cursor.isBlank, Bool.or_eq_true, decide_eq_true_eq] at h
  rcases h with ((rfl | rfl) | rfl) | rfl <;> rfl

theorem Blanks.ends {ws : List Char} (h : Blanks ws) : Ends ws :=
  fun w hw => continuesNumeral_of_isBlank (h w (List.mem_of_mem_head? hw))

theorem ends_blanks {ws : List Char} {x : Char} (h : Blanks ws) (hx : continuesNumeral x = false) :
    Ends (ws ++ x :: rest) := by
  cases ws with
  | nil => exact ends_cons rest hx
  | cons w ws => exact ends_cons _ (continuesNumeral_of_isBlank (h w List.mem_cons_self))

/-- A comma does not go on with a numeral. -/
theorem Separates.ends {s : List Char} (h : Separates false s) (rest : List Char) :
    Ends (s ++ rest) := by
  obtain ⟨ws, ws', hws, -, rfl⟩ := h
  rw [List.append_assoc, List.cons_append]
  exact ends_blanks hws rfl

namespace Numeral

open Typed

theorem exists_digitRun_cons (h : IsRun ds) (hr : NoDigit rest) (place : Place) :
    ∃ v vs place', digitRun ⟨ds ++ rest, place⟩ = (v :: vs, ⟨rest, place'⟩) := by
  obtain ⟨place', hrun⟩ := exists_digitRun h.2 hr place
  obtain ⟨d, ds, rfl⟩ := List.exists_cons_of_ne_nil h.1
  exact ⟨_, _, place', hrun⟩

/-- What may come after the digits of a numeral is neither another one nor a point. -/
theorem noDigit_exponent {exponent : List Char} (h : IsExponent exponent) (hr : Ends rest) :
    NoDigit (exponent ++ rest) ∧ (exponent ++ rest).head? ≠ some '.' := by
  rcases h with rfl | ⟨e, sign, ds, rfl | rfl, -, -, rfl⟩
  · exact ⟨hr.noDigit, @Ends.peek?_ne_point _ ⟨1, 0⟩ hr⟩
  · exact ⟨noDigit_cons _ rfl, by simp⟩
  · exact ⟨noDigit_cons _ rfl, by simp⟩

theorem noDigit_fraction {part : List Char} (h : IsFraction part) (hr : NoDigit rest) :
    NoDigit (part ++ rest) := by
  rcases h with rfl | ⟨ds, -, rfl⟩
  · exact hr
  · exact noDigit_cons _ rfl

theorem exists_skipFraction {part : List Char} (h : IsFraction part) (hr : NoDigit rest)
    (hpoint : rest.head? ≠ some '.') (place : Place) :
    ∃ place', skipFraction ⟨part ++ rest, place⟩ = .ok ⟨rest, place'⟩ := by
  rcases h with rfl | ⟨ds, hds, rfl⟩
  · exact ⟨place, if_neg hpoint⟩
  · obtain ⟨v, vs, place', hrun⟩ := exists_digitRun_cons hds hr (Cursor.after place '.')
    refine ⟨place', ?_⟩
    unfold skipFraction
    rw [List.cons_append, if_pos Cursor.peek?_cons, Cursor.advance_cons, hrun]

theorem exists_skipExponent {exponent : List Char} (h : IsExponent exponent) (hr : Ends rest)
    (place : Place) :
    ∃ place', skipExponent ⟨exponent ++ rest, place⟩ = .ok ⟨rest, place'⟩ := by
  rcases h with rfl | ⟨e, sign, ds, he, hsign, hds, rfl⟩
  · refine ⟨place, ?_⟩
    unfold skipExponent
    rw [List.nil_append, hr.atExponent, if_neg Bool.false_ne_true]
  · obtain ⟨place₁, hsigned⟩ : ∃ place₁,
        (if Cursor.peek? ⟨sign ++ (ds ++ rest), Cursor.after place e⟩ = some '+' ∨
            Cursor.peek? ⟨sign ++ (ds ++ rest), Cursor.after place e⟩ = some '-' then
          Cursor.advance ⟨sign ++ (ds ++ rest), Cursor.after place e⟩
        else ⟨sign ++ (ds ++ rest), Cursor.after place e⟩) = ⟨ds ++ rest, place₁⟩ := by
      obtain ⟨d, ds, rfl⟩ := List.exists_cons_of_ne_nil hds.1
      have hd : d.isDigit := hds.2 d List.mem_cons_self
      rcases hsign with rfl | rfl | rfl
      · exact ⟨_, if_neg (by simp [ne_of_isDigit hd])⟩
      · exact ⟨_, if_pos (.inl rfl)⟩
      · exact ⟨_, if_pos (.inr rfl)⟩
    obtain ⟨v, vs, place', hrun⟩ := exists_digitRun_cons hds hr.noDigit place₁
    have hletter : atExponent ⟨e :: (sign ++ (ds ++ rest)), place⟩ = true := by
      rcases he with rfl | rfl <;> rfl
    refine ⟨place', ?_⟩
    unfold skipExponent
    rw [List.cons_append, List.append_assoc, if_pos hletter]
    dsimp only
    rw [Cursor.advance_cons, hsigned, hrun]

/-- A numeral is skipped up to where it ends. -/
theorem exists_skipNumeral (h : IsUnsigned cs) (hr : Ends rest) (place : Place) :
    ∃ place', skipNumeral ⟨cs ++ rest, place⟩ = .ok ⟨rest, place'⟩ := by
  obtain ⟨whole, part, exponent, hwhole, hpart, hexponent, rfl⟩ := h
  obtain ⟨hnext, hpoint⟩ := noDigit_exponent hexponent hr
  have hmore : NoDigit (part ++ (exponent ++ rest)) := noDigit_fraction hpart hnext
  obtain ⟨x, hx, hdigit, place₁, hc⟩ : ∃ x,
      Cursor.peek? ⟨whole ++ (part ++ (exponent ++ rest)), place⟩ = some x ∧
      (digitValue? x).isSome ∧ ∃ place₁,
        (if x = '0' then Cursor.advance ⟨whole ++ (part ++ (exponent ++ rest)), place⟩
        else (digitRun ⟨whole ++ (part ++ (exponent ++ rest)), place⟩).2) =
          ⟨part ++ (exponent ++ rest), place₁⟩ := by
    rcases hwhole with rfl | ⟨hrun, hzero⟩
    · exact ⟨'0', rfl, rfl, _, if_pos rfl⟩
    · obtain ⟨v, vs, place₁, hdigits⟩ := exists_digitRun_cons hrun hmore place
      obtain ⟨d, ds, rfl⟩ := List.exists_cons_of_ne_nil hrun.1
      refine ⟨d, rfl, isDigit_head hrun.2, place₁, ?_⟩
      rw [if_neg (by rintro rfl; exact hzero rfl), hdigits]
  obtain ⟨place₂, hpart⟩ := exists_skipFraction hpart hnext hpoint place₁
  obtain ⟨place₃, hexponent⟩ := exists_skipExponent hexponent hr place₂
  refine ⟨place₃, ?_⟩
  rw [List.append_assoc, List.append_assoc, skipNumeral_eq _ hx hdigit]
  dsimp only
  rw [hc, if_neg (by simp [hmore.peek?]), hpart, ok_bind, hexponent]

end Numeral

theorem exists_colon {ws : List Char} (h : Blanks ws) (rest : List Char) (place : Place) :
    ∃ place', colon ⟨ws ++ ':' :: rest, place⟩ = .ok ⟨rest, place'⟩ := by
  obtain ⟨place', hskip⟩ := Cursor.exists_skipBlanks h (x := ':') rfl rest place
  unfold colon
  rw [hskip]
  exact ⟨_, rfl⟩

theorem exists_hexEscape_of_hex {n : Nat} (h : Hex ds n) (rest : List Char) (place : Place) :
    ∃ place', hexEscape ⟨ds ++ rest, place⟩ = .ok (n, ⟨rest, place'⟩) := by
  cases h with
  | @four a b c d w x y z ha hb hc hd =>
      have hbytes : ¬Cursor.bytesLeft ⟨[a, b, c, d] ++ rest, place⟩ < 4 :=
        not_bytesLeft_lt a b c d rest place
      refine ⟨Cursor.placeAfter place [a, b, c, d], ?_⟩
      rw [hexEscape, if_neg hbytes]
      simp [ha, hb, hc, hd]

namespace Typed

theorem skipString_backslash (fuel : Nat) (e : Char) (cs : List Char) (place : Place) :
    skipString (fuel + 1) ⟨'\\' :: e :: cs, place⟩ =
      let c := ⟨cs, Cursor.after (Cursor.after place '\\') e⟩
      if "\"\\/bfnrt".toList.contains e then skipString fuel c
      else if e = 'u' then hexEscape c >>= fun x => skipString fuel x.2
      else .error (Cursor.fail .invalidEscape c) := rfl

theorem exists_skipString (h : IsBody text) (hf : text.length < fuel) (rest : List Char)
    (place : Place) :
    ∃ place', skipString fuel ⟨text ++ '"' :: rest, place⟩ = .ok ⟨rest, place'⟩ := by
  induction h generalizing fuel place with
  | nil =>
      obtain ⟨fuel, rfl⟩ := Nat.exists_eq_add_one_of_ne_zero (Nat.ne_zero_of_lt hf)
      exact ⟨_, rfl⟩
  | @plain x text hx h ih =>
      obtain ⟨fuel, rfl⟩ := Nat.exists_eq_add_one_of_ne_zero (Nat.ne_zero_of_lt hf)
      obtain ⟨place', hrest⟩ := ih (Nat.lt_of_succ_lt_succ hf) (Cursor.after place x)
      refine ⟨place', ?_⟩
      rw [List.cons_append, skipString, Cursor.peek?_cons]
      dsimp only
      rw [if_neg hx.quote, if_neg hx.backslash, if_neg (Nat.not_lt.2 hx.control),
        Cursor.advance_cons, hrest]
  | @named e x text he h ih =>
      obtain ⟨fuel, rfl⟩ := Nat.exists_eq_add_one_of_ne_zero (Nat.ne_zero_of_lt hf)
      have hlength : text.length < fuel := by
        rw [List.length_cons, List.length_cons] at hf
        omega
      obtain ⟨place', hrest⟩ := ih hlength (Cursor.after (Cursor.after place '\\') e)
      refine ⟨place', ?_⟩
      rw [List.cons_append, List.cons_append, skipString_backslash]
      dsimp only
      rw [if_pos (isNamed_iff.2 ⟨x, he⟩), hrest]
  | @unicode ds n text hds h ih =>
      obtain ⟨fuel, rfl⟩ := Nat.exists_eq_add_one_of_ne_zero (Nat.ne_zero_of_lt hf)
      obtain ⟨place₁, hhex⟩ := exists_hexEscape_of_hex hds (text ++ '"' :: rest)
        (Cursor.after (Cursor.after place '\\') 'u')
      have hlength : text.length < fuel := by
        rw [List.length_cons, List.length_cons, List.length_append] at hf
        omega
      obtain ⟨place', hrest⟩ := ih hlength place₁
      refine ⟨place', ?_⟩
      rw [List.cons_append, List.cons_append, List.append_assoc, skipString_backslash]
      dsimp only
      rw [if_neg (by decide), if_pos rfl, hhex, ok_bind, hrest]

theorem exists_cons_of_isUnsigned (h : Numeral.IsUnsigned cs) :
    ∃ d ds, cs = d :: ds ∧ d.isDigit := by
  obtain ⟨whole, part, exponent, rfl | ⟨hrun, -⟩, -, -, rfl⟩ := h
  · exact ⟨_, _, rfl, rfl⟩
  · obtain ⟨d, ds, rfl⟩ := List.exists_cons_of_ne_nil hrun.1
    exact ⟨_, _, rfl, hrun.2 d List.mem_cons_self⟩

/-- The first character of a value is neither a blank nor one that ends an array. -/
theorem exists_cons_of_parses {x : List Char} (h : Parses .value x) :
    ∃ y ys, x = y :: ys ∧ Cursor.isBlank y = false ∧ y ≠ ']' := by
  cases h with
  | unsigned h =>
      obtain ⟨d, ds, rfl, hd⟩ := exists_cons_of_isUnsigned h
      exact ⟨d, ds, rfl, isBlank_of_isDigit hd, ne_of_isDigit hd rfl⟩
  | null | true | false | negative _ | string _ | array _ | object _ =>
      exact ⟨_, _, rfl, rfl, by decide⟩

/-- What is skipped by some fuel, beside what `Skips` says. -/
structure Skipped (fuel : Nat) : Prop where
  value : ∀ {ws x rest : List Char}, Blanks ws → Parses .value x → x.length ≤ fuel → Ends rest →
    ∀ place, ∃ place', skip fuel ⟨ws ++ (x ++ rest), place⟩ = .ok ⟨rest, place'⟩
  items : ∀ {ws x xs : List Char}, Blanks ws → Parses .value x →
    Parses (.items false) xs → x.length + xs.length < fuel → ∀ rest place,
    ∃ place', skipItems fuel ⟨ws ++ (x ++ (xs ++ ']' :: rest)), place⟩ = .ok ⟨rest, place'⟩
  members : ∀ {ws k v ms : List Char}, Blanks ws → Labels IsBody k →
    Parses .value v → Parses (.members false) ms → v.length + ms.length < fuel → ∀ rest place,
    ∃ place', skipMembers fuel ⟨ws ++ (k ++ (v ++ (ms ++ '\x7d' :: rest))), place⟩ =
      .ok ⟨rest, place'⟩

theorem exists_skip_blanks {ws : List Char} {y : Char} (hws : Blanks ws)
    (hy : Cursor.isBlank y = false) (fuel : Nat) (rest : List Char) (place : Place) :
    ∃ place', skip (fuel + 1) ⟨ws ++ y :: rest, place⟩ = skip (fuel + 1) ⟨y :: rest, place'⟩ := by
  obtain ⟨place', hskip⟩ := Cursor.exists_skipBlanks hws hy rest place
  refine ⟨place', ?_⟩
  simp only [skip, hskip, Cursor.skipBlanks_cons hy]

theorem skip_bracket (fuel : Nat) (cs : List Char) (place : Place) :
    skip (fuel + 1) ⟨'[' :: cs, place⟩ =
      let c := Cursor.skipBlanks ⟨cs, Cursor.after place '['⟩
      if c.peek? = some ']' then .ok c.advance
      else if c.peek? = none then .error (c.failPeek .eofInList)
      else skipItems fuel c := rfl

theorem skip_brace (fuel : Nat) (cs : List Char) (place : Place) :
    skip (fuel + 1) ⟨'\x7b' :: cs, place⟩ =
      let c := Cursor.skipBlanks ⟨cs, Cursor.after place '\x7b'⟩
      if c.peek? = some '\x7d' then .ok c.advance else skipMembers fuel c := rfl

theorem skip_digit (fuel : Nat) {d : Char} (hd : d.isDigit) (cs : List Char) (place : Place) :
    skip (fuel + 1) ⟨d :: cs, place⟩ = skipNumeral ⟨d :: cs, place⟩ := by
  have hsome : (digitValue? d).isSome := by
    rw [digitValue?_of_isDigit hd]
    rfl
  simp only [skip, Cursor.skipBlanks_cons (isBlank_of_isDigit hd), Cursor.peek?_cons,
    if_neg (ne_of_isDigit hd (show '['.isDigit = false from rfl)),
    if_neg (ne_of_isDigit hd (show '\x7b'.isDigit = false from rfl)),
    if_neg (ne_of_isDigit hd (show '"'.isDigit = false from rfl)),
    if_neg (ne_of_isDigit hd (show '-'.isDigit = false from rfl)), if_pos hsome]

theorem skip_word {w : List Char} (y : Char) (v : Json) {c c' : Cursor}
    (hskip : skip (fuel + 1) c = (·.2) <$> scalar y c)
    (hscalar : ∀ c : Cursor, scalar y c = do return (v, ← Cursor.word w c.advance))
    (hword : Cursor.word w c.advance = .ok c') : skip (fuel + 1) c = .ok c' := by
  rw [hskip, hscalar, hword]
  rfl

theorem Skipped.exists_array (ih : Skipped fuel) {xs : List Char} (h : Parses (.items true) xs)
    (hf : xs.length < fuel) (rest : List Char) (place : Place) :
    ∃ place', skip (fuel + 1) ⟨'[' :: (xs ++ ']' :: rest), place⟩ = .ok ⟨rest, place'⟩ := by
  rw [skip_bracket]
  cases h with
  | noItems hws =>
      obtain ⟨place', hskip⟩ := Cursor.exists_skipBlanks hws (x := ']') rfl rest
        (Cursor.after place '[')
      dsimp only
      rw [hskip, if_pos Cursor.peek?_cons]
      exact ⟨_, rfl⟩
  | @item _ s x xs hs hx hxs =>
      obtain ⟨y, ys, rfl, hblank, hend⟩ := exists_cons_of_parses hx
      obtain ⟨place₁, hskip⟩ := Cursor.exists_skipBlanks (show Blanks s from hs) hblank
        (ys ++ (xs ++ ']' :: rest)) (Cursor.after place '[')
      have hlength : (y :: ys).length + xs.length < fuel := by
        simp only [List.length_append] at hf ⊢
        omega
      obtain ⟨place₂, hitems⟩ := ih.items blanks_nil hx hxs hlength rest place₁
      refine ⟨place₂, ?_⟩
      rw [List.append_assoc, List.append_assoc, List.cons_append, hskip]
      dsimp only
      rw [Cursor.peek?_cons, if_neg (by simpa using hend), if_neg (by simp)]
      exact hitems

theorem Skipped.exists_object (ih : Skipped fuel) {ms : List Char} (h : Parses (.members true) ms)
    (hf : ms.length < fuel) (rest : List Char) (place : Place) :
    ∃ place', skip (fuel + 1) ⟨'\x7b' :: (ms ++ '\x7d' :: rest), place⟩ = .ok ⟨rest, place'⟩ := by
  rw [skip_brace]
  cases h with
  | noMembers hws =>
      obtain ⟨place', hskip⟩ := Cursor.exists_skipBlanks hws (x := '\x7d') rfl rest
        (Cursor.after place '\x7b')
      dsimp only
      rw [hskip, if_pos Cursor.peek?_cons]
      exact ⟨_, rfl⟩
  | @member _ s k v ms hs hk hv hms =>
      have hlength : v.length + ms.length < fuel := by
        simp only [List.length_append] at hf
        omega
      obtain ⟨place₁, hskip⟩ : ∃ place₁, Cursor.skipBlanks
          ⟨s ++ (k ++ (v ++ (ms ++ '\x7d' :: rest))), Cursor.after place '\x7b'⟩ =
            ⟨k ++ (v ++ (ms ++ '\x7d' :: rest)), place₁⟩ := by
        obtain ⟨text, ws, ws', -, -, -, rfl⟩ := hk
        exact Cursor.exists_skipBlanks (show Blanks s from hs) rfl _ _
      obtain ⟨place₂, hmembers⟩ :=
        ih.members blanks_nil hk hv hms hlength rest place₁
      have hquote : Cursor.peek? ⟨k ++ (v ++ (ms ++ '\x7d' :: rest)), place₁⟩ = some '"' := by
        obtain ⟨text, ws, ws', -, -, -, rfl⟩ := hk
        rfl
      refine ⟨place₂, ?_⟩
      rw [List.append_assoc, List.append_assoc, List.append_assoc, hskip]
      dsimp only
      rw [hquote, if_neg (by decide)]
      exact hmembers

/-- However a value is written, it is skipped once the blanks before it are. -/
theorem Skipped.value_succ (ih : Skipped fuel) {ws x : List Char} (hws : Blanks ws)
    (h : Parses .value x) (hf : x.length ≤ fuel + 1) (hr : Ends rest) (place : Place) :
    ∃ place', skip (fuel + 1) ⟨ws ++ (x ++ rest), place⟩ = .ok ⟨rest, place'⟩ := by
  obtain ⟨y, ys, rfl, hblank, -⟩ := exists_cons_of_parses h
  obtain ⟨place₁, hskip⟩ := exists_skip_blanks hws hblank fuel (ys ++ rest) place
  rw [List.cons_append, hskip]
  generalize hx : y :: ys = x at h
  cases h with
  | null =>
      cases hx
      obtain ⟨place', hword⟩ := Cursor.exists_word "ull".toList rest (Cursor.after place₁ 'n')
      exact ⟨place', skip_word 'n' Json.null rfl (fun _ => rfl) hword⟩
  | true =>
      cases hx
      obtain ⟨place', hword⟩ := Cursor.exists_word "rue".toList rest (Cursor.after place₁ 't')
      exact ⟨place', skip_word 't' (Json.bool true) rfl (fun _ => rfl) hword⟩
  | false =>
      cases hx
      obtain ⟨place', hword⟩ := Cursor.exists_word "alse".toList rest (Cursor.after place₁ 'f')
      exact ⟨place', skip_word 'f' (Json.bool false) rfl (fun _ => rfl) hword⟩
  | unsigned h =>
      obtain ⟨d, ds, rfl, hd⟩ := exists_cons_of_isUnsigned h
      cases hx
      rw [skip_digit fuel hd]
      exact Numeral.exists_skipNumeral h hr place₁
  | negative h =>
      cases hx
      exact Numeral.exists_skipNumeral h hr (Cursor.after place₁ '-')
  | @string text h =>
      cases hx
      have hlength : text.length < ('"' :: (text ++ '"' :: rest)).length + 1 := by
        simp only [List.length_cons, List.length_append]
        omega
      rw [List.append_assoc]
      exact exists_skipString h hlength rest (Cursor.after place₁ '"')
  | @array xs h =>
      cases hx
      have hlength : xs.length < fuel := by
        simp only [List.length_cons, List.length_append] at hf
        omega
      rw [List.append_assoc]
      exact ih.exists_array h hlength rest place₁
  | @object ms h =>
      cases hx
      have hlength : ms.length < fuel := by
        simp only [List.length_cons, List.length_append] at hf
        omega
      rw [List.append_assoc]
      exact ih.exists_object h hlength rest place₁

theorem Skipped.items_succ (ih : Skipped fuel) {ws x xs : List Char} (hws : Blanks ws)
    (hx : Parses .value x) (h : Parses (.items false) xs) (hf : x.length + xs.length < fuel + 1)
    (rest : List Char) (place : Place) :
    ∃ place', skipItems (fuel + 1) ⟨ws ++ (x ++ (xs ++ ']' :: rest)), place⟩ =
      .ok ⟨rest, place'⟩ := by
  unfold skipItems
  cases h with
  | noItems hws' =>
      obtain ⟨place₁, hitem⟩ := ih.value hws hx (by omega)
        (show Ends (xs ++ ']' :: rest) from ends_blanks hws' (by decide)) place
      obtain ⟨place₂, hskip⟩ := Cursor.exists_skipBlanks hws' (x := ']') rfl rest place₁
      rw [hitem, ok_bind, hskip]
      exact ⟨_, rfl⟩
  | @item _ s z xs hs hz hxs =>
      obtain ⟨ws', ws₂, hws', hws₂, rfl⟩ := hs
      have hlength : z.length + xs.length < fuel := by
        simp only [List.length_append, List.length_cons] at hf
        omega
      simp only [List.append_assoc, List.cons_append]
      obtain ⟨place₁, hitem⟩ := ih.value hws hx (by omega)
        (show Ends (ws' ++ ',' :: (ws₂ ++ (z ++ (xs ++ ']' :: rest)))) from
          ends_blanks hws' (by decide)) place
      obtain ⟨place₂, hskip⟩ := Cursor.exists_skipBlanks hws' (x := ',') rfl
        (ws₂ ++ (z ++ (xs ++ ']' :: rest))) place₁
      rw [hitem, ok_bind, hskip]
      exact ih.items hws₂ hz hxs hlength _ _

theorem Skipped.members_succ (ih : Skipped fuel) {ws k v ms : List Char} (hws : Blanks ws)
    (hk : Labels IsBody k) (hv : Parses .value v) (h : Parses (.members false) ms)
    (hf : v.length + ms.length < fuel + 1) (rest : List Char) (place : Place) :
    ∃ place', skipMembers (fuel + 1) ⟨ws ++ (k ++ (v ++ (ms ++ '\x7d' :: rest))), place⟩ =
      .ok ⟨rest, place'⟩ := by
  obtain ⟨text, ws₁, ws₂, htext, hws₁, hws₂, rfl⟩ := hk
  simp only [List.append_assoc, List.cons_append]
  obtain ⟨place₁, hquote⟩ := Cursor.exists_skipBlanks hws (x := '"') rfl
    (text ++ '"' :: (ws₁ ++ ':' :: (ws₂ ++ (v ++ (ms ++ '\x7d' :: rest))))) place
  have hlength : text.length <
      ('"' :: (text ++ '"' :: (ws₁ ++ ':' :: (ws₂ ++ (v ++ (ms ++ '\x7d' :: rest)))))).length + 1 := by
    simp only [List.length_cons, List.length_append]
    omega
  obtain ⟨place₂, hkey⟩ := exists_skipString htext hlength
    (ws₁ ++ ':' :: (ws₂ ++ (v ++ (ms ++ '\x7d' :: rest)))) (Cursor.after place₁ '"')
  obtain ⟨place₃, hcolon⟩ := exists_colon hws₁ (ws₂ ++ (v ++ (ms ++ '\x7d' :: rest))) place₂
  unfold skipMembers
  rw [hquote]
  dsimp only [Cursor.peek?_cons, Cursor.advance_cons]
  rw [if_neg (by decide), hkey, ok_bind, hcolon, ok_bind]
  cases h with
  | noMembers hws' =>
      obtain ⟨place₄, hvalue⟩ := ih.value hws₂ hv (by omega)
        (show Ends (ms ++ '\x7d' :: rest) from ends_blanks hws' (by decide)) place₃
      obtain ⟨place₅, hskip⟩ := Cursor.exists_skipBlanks hws' (x := '\x7d') rfl rest place₄
      rw [hvalue, ok_bind, hskip]
      exact ⟨_, rfl⟩
  | @member _ s k u ms hs hk hu hms =>
      obtain ⟨ws', ws₃, hws', hws₃, rfl⟩ := hs
      have hlength : u.length + ms.length < fuel := by
        simp only [List.length_append, List.length_cons] at hf
        omega
      simp only [List.append_assoc, List.cons_append]
      obtain ⟨place₄, hvalue⟩ := ih.value hws₂ hv (by omega)
        (show Ends (ws' ++ ',' :: (ws₃ ++ (k ++ (u ++ (ms ++ '\x7d' :: rest))))) from
          ends_blanks hws' (by decide)) place₃
      obtain ⟨place₅, hskip⟩ := Cursor.exists_skipBlanks hws' (x := ',') rfl
        (ws₃ ++ (k ++ (u ++ (ms ++ '\x7d' :: rest)))) place₄
      rw [hvalue, ok_bind, hskip]
      exact ih.members hws₃ hk hu hms hlength _ _

theorem skipped (fuel : Nat) : Skipped fuel := by
  induction fuel with
  | zero =>
      constructor
      · intro ws x rest _ hx hf
        obtain ⟨y, ys, rfl, -⟩ := exists_cons_of_parses hx
        cases hf
      · intro ws x xs _ _ _ hf
        cases hf
      · intro ws k v ms _ _ _ _ hf
        cases hf
  | succ fuel ih =>
      constructor
      · intro ws x rest hws hx hf hr
        exact ih.value_succ hws hx hf hr
      · intro ws x xs hws hx hxs hf
        exact ih.items_succ hws hx hxs hf
      · intro ws k v ms hws hk hv hms hf
        exact ih.members_succ hws hk hv hms hf

/-- A value is skipped, whatever comes after it. -/
theorem exists_skip {ws x : List Char} (hws : Blanks ws) (hx : Parses .value x)
    (hf : x.length ≤ fuel) (hr : Ends rest) (place : Place) :
    ∃ place', skip fuel ⟨ws ++ (x ++ rest), place⟩ = .ok ⟨rest, place'⟩ :=
  (skipped fuel).value hws hx hf hr place

end Typed

end SqlGate.Json
