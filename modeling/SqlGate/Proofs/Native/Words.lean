import SqlGate.Native.Render
import SqlGate.Proofs.Json.Unique
import SqlGate.Proofs.Text.Plain

/-!
# Values whose texts stand for themselves

The text of a number, of a time, of an address or of a span of time has no comma and no bracket, and
that of a shape has commas inside of brackets only; so they are solid. A box alone has two corners
with a comma between them.
-/

namespace SqlGate.Native

open Text Number Calendar

/-! ## Numbers -/

theorem plain_nonFinite (negative : Bool) : Plain (nonFinite negative) := by
  cases negative <;> decide

theorem plain_signed {negative : Bool} {s : String} (h : Plain s) : Plain (signed negative s) :=
  plain_ite (plain_append.2 ⟨by decide, h⟩) h

theorem signed_ne {negative : Bool} {s : String} (h : s ≠ "") : signed negative s ≠ "" := by
  cases negative with
  | true => simp [signed]
  | false => exact h

theorem plain_positional {whole : String} (d : Decimal) (h : Plain whole) :
    Plain (positional whole d) := by
  have hdigits : Plain (String.ofList (digits d.digits)) := plain_ofList.2 (plain_digits _)
  have htake (n : Nat) : Plain (String.ofList ((digits d.digits).take n)) :=
    plain_ofList.2 fun c hc => plain_digits _ c (List.mem_of_mem_take hc)
  have hdrop (n : Nat) : Plain (String.ofList ((digits d.digits).drop n)) :=
    plain_ofList.2 fun c hc => plain_digits _ c (List.mem_of_mem_drop hc)
  unfold positional
  dsimp only
  split_ifs
  · simpa using ⟨by decide, hdigits⟩
  · simpa using ⟨hdigits, h⟩
  · simpa using ⟨⟨htake _, by decide⟩, hdrop _⟩

theorem positional_ne {whole : String} (d : Decimal) : positional whole d ≠ "" := by
  have hdigits : digits d.digits ≠ [] := Nat.toDigits_ne_nil
  unfold positional
  dsimp only
  split_ifs
  · simp
  · simp [String.append_eq_empty_iff, hdigits]
  · simp [String.append_eq_empty_iff]

/-- A double in a shape. -/
theorem solid_plain (x : Double) : Solid x.plain := by
  unfold Double.plain
  split
  · exact solid_of_plain (by decide) (by decide)
  · next negative _ =>
    exact solid_of_plain (plain_nonFinite negative) (by cases negative <;> decide)
  · refine solid_of_plain (plain_signed ?_) (signed_ne ?_)
    · exact plain_ite (by decide) (plain_positional _ (by decide))
    · split
      · decide
      · exact positional_ne _

theorem isPlain_written {w : Json.Numeral.Written} (h : w.Sound) : ∀ c ∈ w.chars, isPlain c := by
  have hdigits {ds : List Char} (hds : ∀ c ∈ ds, c.isDigit) : ∀ c ∈ ds, isPlain c :=
    fun c hc => isPlain_of_isDigit (hds c hc)
  simp only [Json.Numeral.Written.chars, List.forall_mem_append]
  refine ⟨hdigits h.whole.2, ?_, ?_⟩
  · cases hpart : w.part with
    | nil => exact List.forall_mem_nil _
    | cons d ds => exact List.forall_mem_cons.2 ⟨by decide, hpart ▸ hdigits h.part⟩
  · cases hexponent : w.exponent with
    | none => exact List.forall_mem_nil _
    | some e =>
        obtain ⟨negative, ds⟩ := e
        refine List.forall_mem_cons.2 ⟨by decide, List.forall_mem_cons.2 ⟨?_, ?_⟩⟩
        · cases negative <;> decide
        · exact hdigits (h.exponent _ hexponent).2

/-- The text of a number. -/
theorem solid_number {n : Json.Num} (h : Json.Readable (.num n)) : Solid n.text := by
  obtain ⟨negative, w, hw, htext, -⟩ := Json.exists_number h
  refine solid_of_plain (fun c hc => ?_) fun hempty => ?_
  · rw [htext, List.mem_append] at hc
    rcases hc with hc | hc
    · cases negative with
      | true =>
          rw [List.mem_singleton.1 hc]
          decide
      | false => cases hc
    · exact isPlain_written hw c hc
  · obtain ⟨d, ds, hd, -⟩ := hw.exists_digit
    rw [hempty, hd] at htext
    cases negative <;> cases htext

/-- A number is not written like a value that is none. -/
theorem text_ne_nonFinite {n : Json.Num} (h : Json.Readable (.num n)) :
    n.text ≠ "NaN" ∧ ∀ negative, n.text ≠ nonFinite negative := by
  obtain ⟨negative, w, hw, htext, -⟩ := Json.exists_number h
  obtain ⟨d, ds, hd, hdigit⟩ := hw.exists_digit
  rw [hd] at htext
  -- Behind a sign there is a digit.
  have hne {s : String} (hs : ¬ s.toList.head?.any Char.isDigit)
      (hs' : ¬ (s.toList.head? = some '-' ∧ s.toList.tail.head?.any Char.isDigit)) :
      n.text ≠ s := by
    rintro rfl
    rw [htext] at hs hs'
    cases negative with
    | true => exact hs' ⟨rfl, hdigit⟩
    | false => exact hs hdigit
  refine ⟨hne (by decide) (by decide), fun negative => ?_⟩
  cases negative with
  | true => exact hne (by decide) (by decide)
  | false => exact hne (by decide) (by decide)

/-! ## Amounts, times and dates -/

theorem solid_moneyText (cents : Int64) : Solid (moneyText cents) := by
  refine solid_of_plain (plain_signed (by simp +decide)) (signed_ne ?_)
  simp [String.append_eq_empty_iff]

theorem solid_uuidText (bs : List UInt8) : Solid (uuidText bs) := by
  refine solid_of_plain (plain_intercalate (by decide) (by simp)) ?_
  simp [uuidText, String.intercalate_cons_cons, String.append_eq_empty_iff]

theorem plain_moment (m : Moment) : Plain m.text := by
  have hyear (y : Int) : Plain (yearText y) := by
    unfold yearText
    split_ifs <;> simp +decide
  have hfraction : Plain (if m.nanos = 0 then ""
      else "." ++ padNat 6 (m.nanos % 1000000000 / 1000)) :=
    plain_ite (by decide) (by simp +decide)
  simp +decide [Moment.text, dateText, ClockTime.text, hyear, hfraction]

theorem solid_moment (m : Moment) : Solid m.text :=
  solid_of_plain (plain_moment m) (by simp [Moment.text, String.append_eq_empty_iff])

theorem solid_timestamp (t : Timestamp) : Solid t.render := by
  cases t with
  | finite m => exact solid_moment m
  | infinity => exact solid_of_plain (by decide) (by decide)
  | negInfinity => exact solid_of_plain (by decide) (by decide)

theorem solid_date (d : Date) : Solid d.render := by
  cases d with
  | finite day => exact solid_moment _
  | infinity => exact solid_of_plain (by decide) (by decide)
  | negInfinity => exact solid_of_plain (by decide) (by decide)

theorem plain_timeText (t : ClockTime) : Plain (timeText t) := by
  unfold timeText
  dsimp only
  split_ifs <;> simp +decide [ClockTime.text]

theorem timeText_ne (t : ClockTime) : timeText t ≠ "" := by
  unfold timeText
  dsimp only
  split_ifs <;> simp [ClockTime.text, String.append_eq_empty_iff]

theorem plain_offsetText (east : Int) : Plain (offsetText east) := by
  have hsign : Plain (if east < 0 then "-" else "+") := plain_ite (by decide) (by decide)
  unfold offsetText
  dsimp only
  split_ifs <;> simp +decide

/-! ## Spans of time -/

theorem plain_fractionDigits (micros : Nat) : Plain (fractionDigits micros) := by
  refine plain_ofList.2 fun c hc => ?_
  have hmem := (List.dropWhile_sublist _).subset (List.mem_reverse.1 hc)
  exact plain_padNat 6 micros c (List.mem_reverse.1 hmem)

theorem plain_clockText (microseconds : Int) : Plain (clockText microseconds) := by
  refine plain_signed ?_
  split_ifs <;> simp +decide [plain_fractionDigits]

theorem clockText_ne (microseconds : Int) : clockText microseconds ≠ "" := by
  refine signed_ne ?_
  split_ifs <;> simp [String.append_eq_empty_iff]

theorem plain_countText {unit : String} (h : Plain unit) (n : Int) : Plain (countText n unit) := by
  have hplural : Plain (if n.natAbs = 1 then "" else "s") := plain_ite (by decide) (by decide)
  simp +decide [countText, h, hplural]

/-- A part of the text of an interval. -/
theorem part_of_mem (i : Interval) : ∀ s ∈ i.parts, Plain s ∧ s ≠ "" := by
  have hcount (n : Int) {unit : String} (h : Plain unit) :
      ∀ s ∈ if n = 0 then [] else [countText n unit], Plain s ∧ s ≠ "" := by
    split
    · exact nofun
    · exact List.forall_mem_singleton.2
        ⟨plain_countText h n, by simp [countText, String.append_eq_empty_iff]⟩
  simp only [Interval.parts, List.forall_mem_append]
  refine ⟨⟨⟨hcount _ (by decide), hcount _ (by decide)⟩, hcount _ (by decide)⟩, ?_⟩
  split
  · exact nofun
  · exact List.forall_mem_singleton.2 ⟨plain_clockText _, clockText_ne _⟩

theorem intercalate_ne {sep : String} {ss : List String} (hne : ss ≠ []) (h : ∀ s ∈ ss, s ≠ "") :
    sep.intercalate ss ≠ "" := by
  obtain ⟨s, ss, rfl⟩ := List.exists_cons_of_ne_nil hne
  have hs := h s List.mem_cons_self
  cases ss with
  | nil => rwa [String.intercalate_singleton]
  | cons t ss => simp [String.intercalate_cons_cons, String.append_eq_empty_iff, hs]

theorem solid_interval (i : Interval) : Solid i.render := by
  unfold Interval.render
  split
  · exact solid_of_plain (by decide) (by decide)
  · next hne =>
    refine solid_of_plain (plain_intercalate (by decide) fun s hs => (part_of_mem i s hs).1)
      (intercalate_ne (by simpa using hne) fun s hs => (part_of_mem i s hs).2)

/-! ## Addresses -/

theorem plain_dotted (bs : List Nat) : Plain (dotted bs) :=
  plain_intercalate (by decide) (by simp)

theorem dotted_ne {bs : List Nat} (h : bs ≠ []) : dotted bs ≠ "" :=
  intercalate_ne (by simpa using h) (by simp [decimal_ne])

theorem plain_joinGroups (gs : List Nat) : Plain (joinGroups gs) :=
  plain_intercalate (by decide) (by simp)

theorem joinGroups_ne {gs : List Nat} (h : gs ≠ []) : joinGroups gs ≠ "" := by
  refine intercalate_ne (by simpa using h) ?_
  simp [Hex.ofNat]

theorem solid_groupsText {gs : List Nat} (h : gs ≠ []) : Solid (groupsText gs) := by
  unfold groupsText
  split
  · exact solid_of_plain (plain_append.2 ⟨by decide, plain_dotted _⟩) (by simp)
  · dsimp only
    split_ifs
    · refine solid_of_plain ?_ (by simp [String.append_eq_empty_iff])
      simp +decide [plain_joinGroups]
    · exact solid_of_plain (plain_joinGroups _) (joinGroups_ne h)

/-- An address of four or sixteen bytes. -/
theorem solid_address {a : Address} (h : ∀ bs, a = .v6 bs → bs.length = 16) : Solid a.text := by
  cases a with
  | v4 a b c d => exact solid_of_plain (plain_dotted _) (dotted_ne (List.cons_ne_nil _ _))
  | v6 bs =>
      refine solid_groupsText ?_
      obtain ⟨x, bs, rfl⟩ := List.exists_cons_of_length_pos (by rw [h bs rfl]; decide)
      cases bs with
      | nil => cases h _ rfl
      | cons y bs => exact List.cons_ne_nil _ _

theorem solid_inet {i : Inet} (h : ∀ bs, i.address = .v6 bs → bs.length = 16) : Solid i.text := by
  have haddress := solid_address h
  unfold Inet.text
  split_ifs
  · exact haddress
  · refine ⟨?_, by simp [String.append_eq_empty_iff]⟩
    rw [String.toList_append, String.toList_append]
    exact (haddress.passes.append (passes_of_isPlain (show Plain "/" by decide))).append
      (passes_of_isPlain (plain_decimal _))

theorem solid_mac {bs : List UInt8} (h : bs ≠ []) :
    Solid (":".intercalate (bs.map fun b => String.ofList (Hex.byte b))) := by
  refine solid_of_plain (plain_intercalate (by decide) ?_) (intercalate_ne (by simpa using h) ?_)
  · simpa using fun b _ => plain_ofList.2 (isPlain_hexByte b)
  · simp [Hex.byte]

/-! ## Shapes -/

theorem solid_parens {s : String} (h : Passes 1 s.toList) : Solid ("(" ++ s ++ ")") :=
  solid_enclosed (o := '(') (c := ')') rfl rfl h

theorem solid_brackets {s : String} (h : Passes 1 s.toList) : Solid ("[" ++ s ++ "]") :=
  solid_enclosed (o := '[') (c := ']') rfl rfl h

theorem solid_point (p : Point) : Solid p.text := by
  have htext : p.text = "(" ++ (p.x.plain ++ "," ++ p.y.plain) ++ ")" := by
    simp only [Point.text, String.append_assoc]
  rw [htext]
  exact solid_parens ((solid_plain p.x).passes_append (solid_plain p.y).passes)

theorem passes_points (ps : List Point) : Passes 1 (pointsText ps).toList :=
  passes_intercalate (by simpa using fun p _ => solid_point p)

/-- A value in the plane that is no box. -/
theorem solid_line (a b c : Double) :
    Solid ("\x7b" ++ ",".intercalate [a.plain, b.plain, c.plain] ++ "\x7d") :=
  solid_enclosed (o := '\x7b') (c := '\x7d') rfl rfl
    (passes_intercalate (by simp [solid_plain]))

theorem solid_segment (p q : Point) : Solid ("[" ++ p.text ++ "," ++ q.text ++ "]") := by
  have hpass := (solid_point p).passes_append (solid_point q).passes
  simpa only [String.append_assoc] using solid_brackets hpass

theorem solid_circle (c : Point) (r : Double) : Solid ("<" ++ c.text ++ "," ++ r.plain ++ ">") := by
  have hpass := (solid_point c).passes_append (solid_plain r).passes
  simpa only [String.append_assoc] using solid_enclosed (o := '<') (c := '>') rfl rfl hpass

end SqlGate.Native
