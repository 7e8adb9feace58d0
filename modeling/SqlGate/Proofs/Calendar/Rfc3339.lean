import Mathlib.Data.List.Basic
import SqlGate.Proofs.Calendar.Gregorian
import SqlGate.Proofs.Text.Digits

/-!
# Texts of moments

The form that RFC 3339 gives a moment in Coordinated Universal Time (`IsRfc3339`): a date, the
letter `T`, hours, minutes and seconds, and the letter `Z`; the microseconds of the second come
before it as a fraction of six digits, unless there are none. Years that four digits are too few for
have a sign.

The text of a moment has this form (`isRfc3339_text`), and a text has it for one date and one time
of day only (`IsRfc3339.unique`).
-/

namespace SqlGate.Calendar

open Text

/-- The text of a year: four digits, or a sign and at least four digits, which have a zero in front
only if they are four. -/
inductive IsYearText : Int → List Char → Prop
  | plain {year : Nat} {cs : List Char} (h : IsPadded 4 year cs) : IsYearText year cs
  | signed {year : Int} {width : Nat} {cs : List Char} (hyear : year < 0 ∨ 9999 < year)
      (h : IsPadded width year.natAbs cs) (hwidth : 4 ≤ width)
      (hzero : 4 < width → cs.head? ≠ some '0') :
      IsYearText year ((if year < 0 then '-' else '+') :: cs)

/-- The text of a date. -/
inductive IsDateText (x : YearMonthDay) : List Char → Prop
  | intro {year month day : List Char} (hyear : IsYearText x.year year)
      (hmonth : IsPadded 2 x.month month) (hday : IsPadded 2 x.day day) :
      IsDateText x (year ++ '-' :: month ++ '-' :: day)

/-- The text of a fraction of a second, in microseconds. -/
inductive IsFractionText : Nat → List Char → Prop
  | none : IsFractionText 0 []
  | some {micros : Nat} {cs : List Char} (hpos : 0 < micros) (h : IsPadded 6 micros cs) :
      IsFractionText micros ('.' :: cs)

/-- The text of a time of day, in microseconds since midnight. -/
inductive IsTimeText (micros : Nat) : List Char → Prop
  | intro {hour minute second fraction : List Char}
      (hhour : IsPadded 2 (micros / 3600000000) hour)
      (hminute : IsPadded 2 (micros / 60000000 % 60) minute)
      (hsecond : IsPadded 2 (micros / 1000000 % 60) second)
      (hfraction : IsFractionText (micros % 1000000) fraction) :
      IsTimeText micros (hour ++ ':' :: minute ++ ':' :: second ++ fraction)

/-- The text of a date and a time of day in Coordinated Universal Time. -/
inductive IsRfc3339 (x : YearMonthDay) (micros : Nat) : List Char → Prop
  | intro {date time : List Char} (hdate : IsDateText x date) (htime : IsTimeText micros time) :
      IsRfc3339 x micros (date ++ 'T' :: (time ++ ['Z']))

namespace Moment

/-- The microseconds of a moment since midnight. -/
def micros (t : Moment) : Nat := t.clock.seconds * 1000000 + t.nanos / 1000

/-- A moment is just so many microseconds after the start of a date, or before it. -/
structure IsAfter (t : Moment) (start : YearMonthDay) (micros : Int) : Prop where
  date_eq : origin.plus t.day = start.plus (micros / 86400000000)
  micros_eq : t.micros = micros % 86400000000
  nanos_lt : t.nanos < 1000000000
  whole : t.nanos % 1000 = 0

end Moment

/-! ## Writing -/

theorem isYearText_yearText (year : Int) : IsYearText year (yearText year).toList := by
  unfold yearText
  split
  next h =>
    obtain ⟨n, rfl⟩ := Int.eq_ofNat_of_zero_le h.1
    exact .plain (isPadded_padNat_of_lt (by decide) (by omega))
  next h =>
    have hzero (hlong : 4 < max 4 (digits year.natAbs).length) :
        (padNat 4 year.natAbs).toList.head? ≠ some '0' :=
      head?_padNat_ne_zero (by omega) (by omega)
    have hsigned := IsYearText.signed (by omega) (isPadded_padNat 4 year.natAbs) (by omega) hzero
    split
    next hneg =>
      rw [if_pos hneg] at hsigned
      rwa [String.toList_append]
    next hneg =>
      rw [if_neg hneg] at hsigned
      rwa [String.toList_append]

theorem YearMonthDay.Valid.isDateText_dateText {x : YearMonthDay} (h : x.Valid) :
    IsDateText x (dateText x).toList := by
  have hmonth_le := h.month_le
  have hday_le := h.day_le.trans (monthLength_le x.year x.month)
  have hmonth : IsPadded 2 x.month (padNat 2 x.month).toList :=
    isPadded_padNat_of_lt (by decide) (by omega)
  have hday : IsPadded 2 x.day (padNat 2 x.day).toList :=
    isPadded_padNat_of_lt (by decide) (by omega)
  have hdate := IsDateText.intro (isYearText_yearText x.year) hmonth hday
  have htext : (dateText x).toList = (yearText x.year).toList ++ '-' :: (padNat 2 x.month).toList ++
      '-' :: (padNat 2 x.day).toList := by
    simp [dateText]
  rwa [htext]

/-- Hours, minutes and seconds stand before the fraction of a second. -/
theorem isTimeText_append {t : ClockTime} {fraction : List Char} (hseconds : t.seconds < 86400)
    (hnanos : t.nanos < 1000000000) (hfraction : IsFractionText (t.nanos / 1000) fraction) :
    IsTimeText (t.seconds * 1000000 + t.nanos / 1000) (t.text.toList ++ fraction) := by
  obtain ⟨micros, hmicros⟩ : ∃ m, m = t.seconds * 1000000 + t.nanos / 1000 := ⟨_, rfl⟩
  -- Dividing the microseconds is dividing the seconds.
  have hhour : micros / 3600000000 = t.seconds / 3600 := by omega
  have hminute : micros / 60000000 = t.seconds / 60 := by omega
  have hsecond : micros / 1000000 % 60 = t.seconds % 60 + t.nanos / 1000000000 := by omega
  have hrest : micros % 1000000 = t.nanos / 1000 := by omega
  rw [← hmicros]
  rw [← hrest] at hfraction
  have htime : IsTimeText micros _ := .intro
    (isPadded_padNat_of_lt (by decide) (by omega)) (isPadded_padNat_of_lt (by decide) (by omega))
    (isPadded_padNat_of_lt (by decide) (by omega)) hfraction
  rw [hhour, hminute, hsecond] at htime
  rw [ClockTime.text]
  simpa using htime

theorem isRfc3339_text {t : Moment} (hnanos : t.nanos < 1000000000) (hwhole : t.nanos % 1000 = 0) :
    IsRfc3339 (dateOfDay t.day) t.micros t.text.toList := by
  have hseconds : t.clock.seconds < 86400 := by
    change (t.seconds % 86400).toNat < 86400
    omega
  have hfraction : IsFractionText (t.nanos / 1000)
      (if t.nanos = 0 then "" else "." ++ padNat 6 (t.nanos % 1000000000 / 1000)).toList := by
    split
    next hzero => rw [hzero]; exact .none
    next hpos =>
      rw [Nat.mod_eq_of_lt hnanos, String.toList_append]
      exact .some (by omega) (isPadded_padNat_of_lt (by decide) (by omega))
  have htime : IsTimeText t.micros _ := isTimeText_append hseconds hnanos hfraction
  have htext := IsRfc3339.intro (valid_dateOfDay t.day).isDateText_dateText htime
  rw [Moment.text]
  simpa using htext

theorem Moment.IsAfter.isRfc3339 {t : Moment} {start : YearMonthDay} {micros : Int}
    (h : t.IsAfter start micros) : IsRfc3339 (start.plus (micros / 86400000000))
      (micros % 86400000000).toNat t.text.toList := by
  have htext := isRfc3339_text h.nanos_lt h.whole
  rwa [dateOfDay_eq_plus, h.date_eq, ← Int.toNat_natCast t.micros, h.micros_eq] at htext

/-! ## Reading -/

section

variable {cs : List Char} {c : Char}

theorem IsYearText.not_mem_T {year : Int} (h : IsYearText year cs) : 'T' ∉ cs := by
  cases h with
  | plain h => exact h.not_mem rfl
  | signed _ h =>
      rw [List.mem_cons, not_or]
      exact ⟨by split <;> decide, h.not_mem rfl⟩

theorem IsFractionText.not_mem {micros : Nat} (h : IsFractionText micros cs)
    (hdigit : c.isDigit = false) (hpoint : c ≠ '.') : c ∉ cs := by
  cases h with
  | none => exact List.not_mem_nil
  | some _ h =>
      rw [List.mem_cons, not_or]
      exact ⟨hpoint, h.not_mem hdigit⟩

/-- No part of a date has the letter that ends it. -/
theorem IsDateText.not_mem_T {x : YearMonthDay} (h : IsDateText x cs) : 'T' ∉ cs := by
  obtain ⟨hyear, hmonth, hday⟩ := h
  simp [hyear.not_mem_T, hmonth.not_mem (c := 'T') rfl, hday.not_mem (c := 'T') rfl]

/-- A time of day has digits, colons and a point. -/
theorem IsTimeText.not_mem {micros : Nat} (h : IsTimeText micros cs) (hdigit : c.isDigit = false)
    (hcolon : c ≠ ':') (hpoint : c ≠ '.') : c ∉ cs := by
  obtain ⟨hhour, hminute, hsecond, hfraction⟩ := h
  simp [hhour.not_mem hdigit, hminute.not_mem hdigit, hsecond.not_mem hdigit,
    hfraction.not_mem hdigit hpoint, hcolon]

theorem IsYearText.unique {year year' : Int} (h : IsYearText year cs) (h' : IsYearText year' cs) :
    year = year' := by
  cases h with
  | plain h =>
      cases h' with
      | plain h' => rw [h.unique h']
      | signed =>
          have hdigit := h.isDigit _ List.mem_cons_self
          split at hdigit <;> cases hdigit
  | @signed _ _ ds hyear h =>
      generalize hcs : (if year < 0 then '-' else '+') :: ds = cs at h'
      cases h' with
      | plain h' =>
          have hdigit := h'.isDigit _ (hcs ▸ List.mem_cons_self)
          split at hdigit <;> cases hdigit
      | signed hyear' h' =>
          obtain ⟨hsign, rfl⟩ := List.cons.inj hcs
          have habs : year.natAbs = year'.natAbs := h.unique h'
          split at hsign <;> split at hsign
          · omega
          · cases hsign
          · cases hsign
          · omega

theorem IsFractionText.unique {micros micros' : Nat} (h : IsFractionText micros cs)
    (h' : IsFractionText micros' cs) : micros = micros' := by
  cases h with
  | none => cases h'; rfl
  | some _ h =>
      cases h' with
      | some _ h' => exact h.unique h'

theorem IsDateText.unique {x x' : YearMonthDay} (h : IsDateText x cs) (h' : IsDateText x' cs) :
    x = x' := by
  cases h with
  | @intro year month day hyear hmonth hday =>
      generalize hcs : year ++ '-' :: month ++ '-' :: day = cs at h'
      cases h' with
      | intro hyear' hmonth' hday' =>
          -- The lengths are known from the end.
          obtain ⟨hfront, hback⟩ := List.append_inj' hcs (by simp [hday.length_eq, hday'.length_eq])
          obtain ⟨rfl, hmiddle⟩ := List.append_inj' hfront
            (by simp [hmonth.length_eq, hmonth'.length_eq])
          obtain rfl := (List.cons.inj hmiddle).2
          obtain rfl := (List.cons.inj hback).2
          have hx : x.year = x'.year ∧ x.month = x'.month ∧ x.day = x'.day :=
            ⟨hyear.unique hyear', hmonth.unique hmonth', hday.unique hday'⟩
          cases x
          cases x'
          simpa using hx

theorem IsTimeText.unique {micros micros' : Nat} (h : IsTimeText micros cs)
    (h' : IsTimeText micros' cs) : micros = micros' := by
  cases h with
  | @intro hour minute second fraction hhour hminute hsecond hfraction =>
      generalize hcs : hour ++ ':' :: minute ++ ':' :: second ++ fraction = cs at h'
      cases h' with
      | intro hhour' hminute' hsecond' hfraction' =>
          -- The lengths are known from the front.
          simp only [List.append_assoc] at hcs
          obtain ⟨rfl, hafterHour⟩ := List.append_inj hcs
            (hhour.length_eq.trans hhour'.length_eq.symm)
          obtain ⟨hmiddle, hafterMinute⟩ := List.append_inj hafterHour
            (by simp [hminute.length_eq, hminute'.length_eq])
          obtain rfl := (List.cons.inj hmiddle).2
          obtain ⟨hback, rfl⟩ := List.append_inj hafterMinute
            (by simp [hsecond.length_eq, hsecond'.length_eq])
          obtain rfl := (List.cons.inj hback).2
          have hhours := hhour.unique hhour'
          have hminutes := hminute.unique hminute'
          have hseconds := hsecond.unique hsecond'
          have hmicros := hfraction.unique hfraction'
          omega

end

theorem IsRfc3339.getLast?_eq {x : YearMonthDay} {micros : Nat} {cs : List Char}
    (h : IsRfc3339 x micros cs) : cs.getLast? = some 'Z' := by
  obtain ⟨hdate, htime⟩ := h
  rw [List.getLast?_append, ← List.cons_append, List.getLast?_concat]
  rfl

/-- A text is that of one date and one time of day. -/
theorem IsRfc3339.unique {x x' : YearMonthDay} {micros micros' : Nat} {cs : List Char}
    (h : IsRfc3339 x micros cs) (h' : IsRfc3339 x' micros' cs) : x = x' ∧ micros = micros' := by
  cases h with
  | @intro date time hdate htime =>
      generalize hcs : date ++ 'T' :: (time ++ ['Z']) = cs at h'
      cases h' with
      | intro hdate' htime' =>
          have htime_T : 'T' ∉ time := htime.not_mem rfl (by decide) (by decide)
          have hrest : 'T' ∉ time ++ ['Z'] := by simp [htime_T]
          obtain ⟨rfl, -, htail⟩ := (List.append_cons_inj_of_notMem hdate.not_mem_T hrest).1 hcs
          obtain rfl := List.append_cancel_right htail
          exact ⟨hdate.unique hdate', htime.unique htime'⟩

end SqlGate.Calendar
