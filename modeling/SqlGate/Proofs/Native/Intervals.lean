import Mathlib.Data.List.Basic
import SqlGate.Native.Render
import SqlGate.Proofs.Text.Digits

/-!
# Texts of intervals

The grammar of the texts is a reader (`Form.ofString?`): the words of a text are counts of years,
months and days, each with its unit, and at last a clock time, and parts that are zero are left out.
What it reads is a `Form`, which keeps the parts apart.

The text of an interval is read as the form of the interval (`Form.ofString?_render`). The words
come apart where the spaces are (`splitOn_render`), each unit is taken by its own name only
(`takeUnits_words`), and a clock time is read field by field (`Clock.ofList?_append`).
-/

namespace SqlGate.Native

open Number Text

/-! ## The grammar -/

/-- The number that is written in decimal digits. -/
def numeral? (cs : List Char) : Option Nat :=
  if cs ≠ [] ∧ cs.all Char.isDigit then some (Nat.ofDigitChars 10 cs 0) else none

/-- Whether there is a minus sign in front, and what comes after it. -/
def splitSign : List Char → Bool × List Char
  | '-' :: cs => (true, cs)
  | cs => (false, cs)

/-- The number that is written with a sign. -/
def integer? (cs : List Char) : Option Int :=
  let (negative, ds) := splitSign cs
  (numeral? ds).map fun (n : Nat) => if negative then -(n : Int) else n

/-- A clock time as it is written. -/
structure Clock where
  negative : Bool
  hours : Nat
  minutes : Nat
  seconds : Nat
  /-- The digits after the point. -/
  fraction : List Char

/-- An interval as it is written; a part that is left out is zero. -/
structure Form where
  years : Int
  months : Int
  days : Int
  clock : Option Clock

namespace Clock

/-- What comes before a point, and the digits after it. -/
def splitFraction? (cs : List Char) : Option (List Char × List Char) :=
  match cs.splitOn '.' with
  | [whole] => some (whole, [])
  | [whole, fraction] =>
    if fraction ≠ [] ∧ fraction.length ≤ 6 ∧ fraction.all Char.isDigit then some (whole, fraction)
    else none
  | _ => none

/-- A clock time from `[-]HH..:MM:SS[.f]`, with at least two digits of hours and at most six of a
fraction. -/
def ofList? (cs : List Char) : Option Clock := do
  let (negative, body) := splitSign cs
  let (whole, fraction) ← splitFraction? body
  match whole.splitOn ':' with
  | [hours, minutes, seconds] =>
    if 2 ≤ hours.length ∧ minutes.length = 2 ∧ seconds.length = 2 then
      return ⟨negative, ← numeral? hours, ← numeral? minutes, ← numeral? seconds, fraction⟩
    else none
  | _ => none

/-- The microseconds of a clock time. The digits of its fraction are the first of six. -/
def microseconds (c : Clock) : Int :=
  let fraction := c.fraction ++ List.replicate (6 - c.fraction.length) '0'
  let n := (c.hours * 3600 + c.minutes * 60 + c.seconds) * 1000000 + Nat.ofDigitChars 10 fraction 0
  if c.negative then -n else n

end Clock

namespace Form

/-- A count of a unit, in the plural unless the count is one, if the first two words are one that is
not zero; else none is counted. -/
def takeUnit (unit : String) (words : List (List Char)) : Int × List (List Char) :=
  match words with
  | n :: name :: rest =>
    match integer? n with
    | some n =>
      if n ≠ 0 ∧ name = (unit ++ if n.natAbs = 1 then "" else "s").toList then (n, rest)
      else (0, words)
    | none => (0, words)
  | _ => (0, words)

/-- The counts of years, months and days, and the words after them. -/
def takeUnits (words : List (List Char)) : Int × Int × Int × List (List Char) :=
  let (years, words) := takeUnit "year" words
  let (months, words) := takeUnit "mon" words
  let (days, words) := takeUnit "day" words
  (years, months, days, words)

/-- An interval from `<n> year(s) <n> mon(s) <n> day(s) [-]HH..:MM:SS[.f]`, of which each part may
be left out, or from `0`. -/
def ofString? (s : String) : Option Form :=
  if s = "0" then some ⟨0, 0, 0, none⟩
  else
    match takeUnits (s.toList.splitOn ' ') with
    | (years, months, days, []) => some ⟨years, months, days, none⟩
    | (years, months, days, [clock]) =>
      (Clock.ofList? clock).map fun c => ⟨years, months, days, some c⟩
    | _ => none

/-- The microseconds of the clock time. -/
def microseconds (f : Form) : Int := (f.clock.map Clock.microseconds).getD 0

/-- A form has the months, days and microseconds of an interval. -/
structure Shows (f : Form) (i : Interval) : Prop where
  months_eq : 12 * f.years + f.months = i.months.toInt
  days_eq : f.days = i.days.toInt
  microseconds_eq : f.microseconds = i.microseconds.toInt

/-- Years and months go in one direction, a clock has sixty minutes of sixty seconds, and a fraction
does not end with a zero. -/
structure Proper (f : Form) : Prop where
  direction : f.years ≤ 0 ∧ f.months ≤ 0 ∨ 0 ≤ f.years ∧ 0 ≤ f.months
  minutes_lt : ∀ c ∈ f.clock, c.minutes < 60
  seconds_lt : ∀ c ∈ f.clock, c.seconds < 60
  trimmed : ∀ c ∈ f.clock, c.fraction.getLast? ≠ some '0'

/-- The parts of an interval and their sizes, taken with numbers of 32 and 64 bits, are what they
are without a limit. -/
structure Exact (f : Form) (i : Interval) : Prop where
  years_eq : (i.months / 12).toInt = f.years
  months_eq : (i.months % 12).toInt = f.months
  abs_years : (i.months / 12).toInt64.abs.toInt = f.years.natAbs
  abs_months : (i.months % 12).toInt64.abs.toInt = f.months.natAbs
  abs_days : i.days.toInt64.abs.toInt = f.days.natAbs
  abs_microseconds : i.microseconds.abs.toUInt64.toNat = f.microseconds.natAbs

end Form

/-! ## Numbers -/

section

variable {cs : List Char} {width n : Nat}

theorem numeral?_of_isPadded (h : IsPadded width n cs) (hwidth : 0 < width) :
    numeral? cs = some n := by
  rw [numeral?, if_pos ⟨h.ne_nil hwidth, List.all_eq_true.2 h.isDigit⟩, h.value_eq]

theorem head?_ne_dash (h : ∀ c ∈ cs, c.isDigit) : cs.head? ≠ some '-' := fun hhead => by
  cases h '-' (List.mem_of_mem_head? hhead)

theorem splitSign_append (negative : Bool) (h : cs.head? ≠ some '-') :
    splitSign ((if negative then ['-'] else []) ++ cs) = (negative, cs) := by
  cases negative with
  | true => rfl
  | false =>
      change splitSign cs = (false, cs)
      unfold splitSign
      split
      next => exact absurd rfl h
      next => rfl

end

theorem integer?_decimal (i : Int) : integer? (decimal i).toList = some i := by
  have hnumeral : numeral? (digits i.natAbs) = some i.natAbs :=
    numeral?_of_isPadded ⟨rfl, fun _ => isDigit_of_mem_digits, ofDigitChars_digits _⟩
      (List.length_pos_iff.2 Nat.toDigits_ne_nil)
  have hsign := splitSign_append (decide (i < 0))
    (head?_ne_dash fun _ => isDigit_of_mem_digits (n := i.natAbs))
  simp only [decide_eq_true_eq] at hsign
  rw [integer?, toList_decimal, hsign]
  simp only [hnumeral, Option.map_some, decide_eq_true_eq, Option.some.injEq]
  split <;> omega

theorem not_mem_decimal {c : Char} (hdigit : c.isDigit = false) (hdash : c ≠ '-') (i : Int) :
    c ∉ (decimal i).toList := by
  have hdigits : c ∉ digits i.natAbs := fun hmem => by
    rw [isDigit_of_mem_digits hmem] at hdigit
    cases hdigit
  rw [toList_decimal, List.mem_append, not_or]
  refine ⟨?_, hdigits⟩
  split
  · simpa using hdash
  · exact List.not_mem_nil

/-! ## Words -/

section

variable {x : Char}

theorem splitOn_append_cons (l l' : List Char) :
    (l ++ x :: l').splitOn x = l.splitOn x ++ l'.splitOn x :=
  List.splitOnP_append_cons l l' (beq_self_eq_true x)

/-- Lists put together around an element are cut where each of them is, and between them. -/
theorem splitOn_intercalate_eq_flatMap {ls : List (List Char)} (h : ls ≠ []) :
    ([x].intercalate ls).splitOn x = ls.flatMap (List.splitOn x) := by
  induction ls with
  | nil => exact absurd rfl h
  | cons l ls ih =>
      cases ls with
      | nil => simp
      | cons l' ls =>
          rw [List.intercalate_cons_cons, List.append_assoc, List.singleton_append,
            splitOn_append_cons, ih (List.cons_ne_nil _ _)]
          rfl

end

/-- The word for a unit. -/
def unitWord (n : Int) (unit : String) : List Char :=
  (unit ++ if n.natAbs = 1 then "" else "s").toList

/-- The words for a count of a unit. -/
def countWords (n : Int) (unit : String) : List (List Char) :=
  if n = 0 then [] else [(decimal n).toList, unitWord n unit]

theorem not_mem_unitWord {unit : String} (hunit : ' ' ∉ unit.toList) (n : Int) :
    ' ' ∉ unitWord n unit := by
  rw [unitWord, String.toList_append, List.mem_append, not_or]
  exact ⟨hunit, by split <;> decide⟩

theorem splitOn_countText {n : Int} {unit : String} (hunit : ' ' ∉ unit.toList) :
    (countText n unit).toList.splitOn ' ' = [(decimal n).toList, unitWord n unit] := by
  have hdecimal : ' ' ∉ (decimal n).toList := not_mem_decimal rfl (by decide) n
  have htext : (countText n unit).toList = (decimal n).toList ++ ' ' :: unitWord n unit := by
    simp [countText, unitWord]
  rw [htext, splitOn_append_cons, List.splitOn_eq_singleton hdecimal,
    List.splitOn_eq_singleton (not_mem_unitWord hunit n)]
  rfl

namespace Form

variable {unit unit' : String} {n : Int} {rest : List (List Char)}

theorem takeUnit_countWords (n : Int) (h : takeUnit unit rest = (0, rest)) :
    takeUnit unit (countWords n unit ++ rest) = (n, rest) := by
  unfold countWords
  split
  next hzero => rw [List.nil_append, h, hzero]
  next hne =>
    simp only [List.cons_append, List.nil_append, takeUnit, integer?_decimal]
    rw [if_pos ⟨hne, rfl⟩]

/-- The words for another unit are left where they are. -/
theorem takeUnit_countWords_of_ne (hunit : unitWord n unit' ≠ unitWord n unit)
    (h : takeUnit unit rest = (0, rest)) :
    takeUnit unit (countWords n unit' ++ rest) = (0, countWords n unit' ++ rest) := by
  unfold countWords
  split
  next => exact h
  next hne =>
    simp only [List.cons_append, List.nil_append, takeUnit, integer?_decimal]
    rw [if_neg fun h => hunit h.2]

end Form

/-! ## Clock times -/

/-- Without the zeros at its end a list is what it was before them. -/
theorem eq_append_replicate (cs : List Char) :
    let front := (cs.reverse.dropWhile (· = '0')).reverse
    cs = front ++ List.replicate (cs.length - front.length) '0' ∧ front.getLast? ≠ some '0' := by
  intro front
  let zeros := cs.reverse.takeWhile (· = '0')
  have hall : ∀ c ∈ zeros.reverse, c = '0' := fun c hc => by
    simpa using List.all_eq_true.1 List.all_takeWhile c (List.mem_reverse.1 hc)
  have hcs : cs = front ++ zeros.reverse := by
    rw [← List.reverse_append, List.takeWhile_append_dropWhile, List.reverse_reverse]
  have hlength : zeros.reverse.length = cs.length - front.length := by
    have hsum := congrArg List.length hcs
    rw [List.length_append] at hsum
    omega
  refine ⟨?_, ?_⟩
  · rw [← List.eq_replicate_iff.2 ⟨hlength, hall⟩]
    exact hcs
  · intro hlast
    have hhead := List.head?_dropWhile_not (· = '0') cs.reverse
    rw [List.getLast?_reverse] at hlast
    rw [hlast] at hhead
    simp at hhead

section

variable {micros : Nat}

/-- The digits of a fraction are the first of six that stand for its microseconds. -/
theorem isPadded_fractionDigits (h : micros < 1000000) :
    let front := (fractionDigits micros).toList
    IsPadded 6 micros (front ++ List.replicate (6 - front.length) '0') := by
  have hpadded : IsPadded 6 micros (padNat 6 micros).toList := isPadded_padNat_of_lt (by decide) h
  have hcs := (eq_append_replicate (padNat 6 micros).toList).1
  rw [hpadded.length_eq] at hcs
  simp only [fractionDigits, String.toList_ofList]
  rwa [← hcs]

theorem length_fractionDigits_le (h : micros < 1000000) :
    (fractionDigits micros).toList.length ≤ 6 := by
  have hlength := (isPadded_fractionDigits h).length_eq
  rw [List.length_append] at hlength
  omega

theorem isDigit_of_mem_fractionDigits (h : micros < 1000000) :
    ∀ c ∈ (fractionDigits micros).toList, c.isDigit := fun c hc =>
  (isPadded_fractionDigits h).isDigit c (List.mem_append_left _ hc)

theorem getLast?_fractionDigits : (fractionDigits micros).toList.getLast? ≠ some '0' := by
  rw [fractionDigits, String.toList_ofList]
  exact (eq_append_replicate _).2

theorem fractionDigits_eq_nil_iff (h : micros < 1000000) :
    (fractionDigits micros).toList = [] ↔ micros = 0 := by
  refine ⟨fun hnil => ?_, fun hzero => hzero ▸ rfl⟩
  have hvalue := (isPadded_fractionDigits h).value_eq
  rw [hnil] at hvalue
  exact hvalue.symm

end

namespace Clock

section

variable {whole hour minute second fraction : List Char} {width hours minutes seconds : Nat}

theorem splitFraction?_append (hwhole : '.' ∉ whole) (hlength : fraction.length ≤ 6)
    (hfraction : ∀ c ∈ fraction, c.isDigit) :
    splitFraction? (whole ++ if fraction = [] then [] else '.' :: fraction) =
      some (whole, fraction) := by
  by_cases hnil : fraction = []
  · rw [if_pos hnil, List.append_nil, splitFraction?, List.splitOn_eq_singleton hwhole, hnil]
  · have hdot : '.' ∉ fraction := fun hmem => by cases hfraction '.' hmem
    rw [if_neg hnil, splitFraction?, splitOn_append_cons, List.splitOn_eq_singleton hwhole,
      List.splitOn_eq_singleton hdot]
    exact if_pos ⟨hnil, hlength, List.all_eq_true.2 hfraction⟩

/-- What is written in the form of a clock time is read as one. -/
theorem ofList?_append (negative : Bool) (hwidth : 2 ≤ width) (hhour : IsPadded width hours hour)
    (hminute : IsPadded 2 minutes minute) (hsecond : IsPadded 2 seconds second)
    (hlength : fraction.length ≤ 6) (hfraction : ∀ c ∈ fraction, c.isDigit) :
    ofList? ((if negative then ['-'] else []) ++ (hour ++ ':' :: minute ++ ':' :: second ++
      if fraction = [] then [] else '.' :: fraction)) =
      some ⟨negative, hours, minutes, seconds, fraction⟩ := by
  have hhead (cs : List Char) :
      (hour ++ ':' :: minute ++ ':' :: second ++ cs).head? ≠ some '-' := by
    simp only [List.append_assoc]
    rw [List.head?_append_of_ne_nil _ (hhour.ne_nil (by omega))]
    exact head?_ne_dash hhour.isDigit
  have hpoint : '.' ∉ hour ++ ':' :: minute ++ ':' :: second := by
    simp [hhour.not_mem (c := '.') rfl, hminute.not_mem (c := '.') rfl,
      hsecond.not_mem (c := '.') rfl]
  have hfields : (hour ++ ':' :: minute ++ ':' :: second).splitOn ':' = [hour, minute, second] := by
    rw [splitOn_append_cons, splitOn_append_cons, List.splitOn_eq_singleton (hhour.not_mem rfl),
      List.splitOn_eq_singleton (hminute.not_mem rfl),
      List.splitOn_eq_singleton (hsecond.not_mem rfl)]
    rfl
  have hlengths : 2 ≤ hour.length ∧ minute.length = 2 ∧ second.length = 2 :=
    ⟨hhour.length_eq ▸ hwidth, hminute.length_eq, hsecond.length_eq⟩
  rw [ofList?, splitSign_append negative (hhead _)]
  simp only [splitFraction?_append hpoint hlength hfraction, hfields, Option.bind_eq_bind,
    Option.bind_some]
  rw [if_pos hlengths, numeral?_of_isPadded hhour (by omega),
    numeral?_of_isPadded hminute (by decide), numeral?_of_isPadded hsecond (by decide)]
  rfl

end

/-- The clock time of a number of microseconds. -/
def ofMicroseconds (u : Int) : Clock :=
  ⟨u < 0, u.natAbs / 3600000000, u.natAbs / 60000000 % 60, u.natAbs / 1000000 % 60,
    (fractionDigits (u.natAbs % 1000000)).toList⟩

/-- The digits of its fraction. -/
theorem exists_fraction (u : Int) : ∃ fraction : List Char,
    fraction = (fractionDigits (u.natAbs % 1000000)).toList ∧
      (fraction = [] ↔ u.natAbs % 1000000 = 0) ∧ fraction.length ≤ 6 ∧
      ∀ c ∈ fraction, c.isDigit :=
  have hlt : u.natAbs % 1000000 < 1000000 := Nat.mod_lt _ (by decide)
  ⟨_, rfl, fractionDigits_eq_nil_iff hlt, length_fractionDigits_le hlt,
    isDigit_of_mem_fractionDigits hlt⟩

theorem toList_clockText {u : Int} {fraction : List Char}
    (hfraction : fraction = (fractionDigits (u.natAbs % 1000000)).toList)
    (hnil : fraction = [] ↔ u.natAbs % 1000000 = 0) :
    (clockText u).toList = (if decide (u < 0) then ['-'] else []) ++
      ((padNat 2 (u.natAbs / 3600000000)).toList ++
        ':' :: (padNat 2 (u.natAbs / 60000000 % 60)).toList ++
        ':' :: (padNat 2 (u.natAbs / 1000000 % 60)).toList ++
        if fraction = [] then [] else '.' :: fraction) := by
  by_cases hzero : u.natAbs % 1000000 = 0
  · by_cases hneg : u < 0 <;> simp [clockText, signed, hneg, hzero, hnil.2 hzero]
  · by_cases hneg : u < 0 <;> simp [clockText, signed, hneg, hzero, mt hnil.1 hzero, ← hfraction]

theorem ofList?_clockText (u : Int) : ofList? (clockText u).toList = some (ofMicroseconds u) := by
  obtain ⟨fraction, hfraction, hnil, hlength, hdigits⟩ := exists_fraction u
  rw [toList_clockText hfraction hnil, ofMicroseconds, ← hfraction]
  exact ofList?_append _ (Nat.le_max_left 2 _) (isPadded_padNat 2 _)
    (isPadded_padNat_of_lt (by decide) (by omega)) (isPadded_padNat_of_lt (by decide) (by omega))
    hlength hdigits

theorem microseconds_ofMicroseconds (u : Int) : (ofMicroseconds u).microseconds = u := by
  have hlt : u.natAbs % 1000000 < 1000000 := Nat.mod_lt _ (by decide)
  have hfraction := (isPadded_fractionDigits hlt).value_eq
  simp only [microseconds, ofMicroseconds, hfraction, decide_eq_true_eq]
  split <;> omega

theorem not_mem_clockText (u : Int) : ' ' ∉ (clockText u).toList := by
  obtain ⟨fraction, hfraction, hnil, -, hdigits⟩ := exists_fraction u
  have hspace : ' ' ∉ fraction := fun hmem => by cases hdigits ' ' hmem
  have hnumber (n : Nat) : ' ' ∉ (padNat 2 n).toList := (isPadded_padNat 2 n).not_mem rfl
  rw [toList_clockText hfraction hnil]
  by_cases hneg : u < 0 <;> by_cases hempty : fraction = [] <;> simp [hneg, hempty, hnumber, hspace]

end Clock

/-! ## Intervals -/

namespace Form

/-- The form of an interval. -/
def ofInterval (i : Interval) : Form :=
  ⟨i.months.toInt.tdiv 12, i.months.toInt.tmod 12, i.days.toInt,
    if i.microseconds.toInt = 0 then none else some (.ofMicroseconds i.microseconds.toInt)⟩

/-- The words of a clock time. -/
def clockWords (u : Int) : List (List Char) := if u = 0 then [] else [(clockText u).toList]

/-- The words of an interval. -/
def words (i : Interval) : List (List Char) :=
  countWords (i.months.toInt.tdiv 12) "year" ++ (countWords (i.months.toInt.tmod 12) "mon" ++
    (countWords i.days.toInt "day" ++ clockWords i.microseconds.toInt))

theorem flatMap_countText {n : Int} {unit : String} (hunit : ' ' ∉ unit.toList) :
    (if n = 0 then [] else [countText n unit]).flatMap (fun p => p.toList.splitOn ' ') =
      countWords n unit := by
  unfold countWords
  split
  · rfl
  · rw [List.flatMap_singleton, splitOn_countText hunit]

theorem flatMap_parts (i : Interval) :
    i.parts.flatMap (fun p => p.toList.splitOn ' ') = words i := by
  have hclock : (if i.microseconds.toInt = 0 then [] else [clockText i.microseconds.toInt]).flatMap
      (fun p => p.toList.splitOn ' ') = clockWords i.microseconds.toInt := by
    unfold clockWords
    split
    · rfl
    · rw [List.flatMap_singleton, List.splitOn_eq_singleton (Clock.not_mem_clockText _)]
  rw [Interval.parts, words]
  simp only [List.flatMap_append, List.append_assoc, hclock,
    flatMap_countText (by decide : ' ' ∉ "year".toList),
    flatMap_countText (by decide : ' ' ∉ "mon".toList),
    flatMap_countText (by decide : ' ' ∉ "day".toList)]

theorem splitOn_render {i : Interval} (h : i.parts ≠ []) :
    i.render.toList.splitOn ' ' = words i := by
  have hempty : i.parts.isEmpty = false := by rwa [List.isEmpty_eq_false_iff]
  have hspace : " ".toList = [' '] := rfl
  rw [Interval.render, hempty, if_neg Bool.false_ne_true, String.toList_intercalate, hspace,
    splitOn_intercalate_eq_flatMap (by simpa using h), List.flatMap_map, flatMap_parts]

theorem takeUnit_clockWords (unit : String) (u : Int) :
    takeUnit unit (clockWords u) = (0, clockWords u) := by
  unfold clockWords
  split <;> rfl

theorem takeUnits_words (i : Interval) : takeUnits (words i) =
    (i.months.toInt.tdiv 12, i.months.toInt.tmod 12, i.days.toInt,
      clockWords i.microseconds.toInt) := by
  have hclock (unit : String) := takeUnit_clockWords unit i.microseconds.toInt
  have hword (n : Int) (unit unit' : String)
      (h : ∀ ending ∈ ["", "s"], (unit ++ ending).toList ≠ (unit' ++ ending).toList) :
      unitWord n unit ≠ unitWord n unit' := by
    unfold unitWord
    split
    · exact h "" (by decide)
    · exact h "s" (by decide)
  have hyear := takeUnit_countWords (i.months.toInt.tdiv 12)
    (takeUnit_countWords_of_ne (hword (i.months.toInt.tmod 12) "mon" "year" (by decide))
      (takeUnit_countWords_of_ne (hword i.days.toInt "day" "year" (by decide)) (hclock "year")))
  have hmonth := takeUnit_countWords (i.months.toInt.tmod 12)
    (takeUnit_countWords_of_ne (hword i.days.toInt "day" "mon" (by decide)) (hclock "mon"))
  have hday := takeUnit_countWords i.days.toInt (hclock "day")
  simp only [takeUnits, words, hyear, hmonth, hday]

theorem render_ne_zero {i : Interval} (h : i.parts ≠ []) : i.render ≠ "0" := by
  intro hzero
  have hwords := splitOn_render h
  rw [hzero] at hwords
  have hunits := takeUnits_words i
  rw [← hwords] at hunits
  have hclock : clockWords i.microseconds.toInt = [['0']] :=
    (congrArg (fun x => x.2.2.2) hunits).symm
  unfold clockWords at hclock
  split at hclock
  next => cases hclock
  next =>
    have hread := Clock.ofList?_clockText i.microseconds.toInt
    rw [(List.cons.inj hclock).1] at hread
    cases hread

/-- The text of an interval is read as its parts. -/
theorem ofString?_render (i : Interval) : ofString? i.render = some (ofInterval i) := by
  have hunits := takeUnits_words i
  by_cases hparts : i.parts = []
  · have hzero : i.render = "0" := by rw [Interval.render, hparts]; rfl
    have hwords := flatMap_parts i
    rw [hparts, List.flatMap_nil] at hwords
    rw [← hwords] at hunits
    obtain ⟨hyears, hmonths, hdays, hclock⟩ : 0 = i.months.toInt.tdiv 12 ∧
        0 = i.months.toInt.tmod 12 ∧ 0 = i.days.toInt ∧ [] = clockWords i.microseconds.toInt := by
      simpa [takeUnits, takeUnit] using hunits
    have hmicros : i.microseconds.toInt = 0 := by
      unfold clockWords at hclock
      split at hclock
      next h => exact h
      next => cases hclock
    rw [hzero, ofString?, if_pos rfl, ofInterval, ← hyears, ← hmonths, ← hdays, if_pos hmicros]
  · rw [ofString?, if_neg (render_ne_zero hparts), splitOn_render hparts, hunits, ofInterval]
    by_cases hmicros : i.microseconds.toInt = 0
    · simp only [clockWords, if_pos hmicros]
    · simp only [clockWords, if_neg hmicros, Clock.ofList?_clockText, Option.map_some]

/-! ## What the form has -/

theorem shows_ofInterval (i : Interval) : (ofInterval i).Shows i := by
  refine ⟨Int.mul_tdiv_add_tmod i.months.toInt 12, rfl, ?_⟩
  rw [microseconds, ofInterval]
  split
  next hmicros => exact hmicros.symm
  next => exact Clock.microseconds_ofMicroseconds i.microseconds.toInt

/-- Division toward zero leaves a rest of the same direction. -/
theorem tdiv_tmod_direction (m : Int) :
    m.tdiv 12 ≤ 0 ∧ m.tmod 12 ≤ 0 ∨ 0 ≤ m.tdiv 12 ∧ 0 ≤ m.tmod 12 := by
  rcases Int.le_total 0 m with hnonneg | hnonpos
  · exact .inr ⟨Int.tdiv_nonneg hnonneg (by decide), Int.tmod_nonneg 12 hnonneg⟩
  · have hneg := Int.neg_nonneg_of_nonpos hnonpos
    have hdiv := Int.tdiv_nonneg hneg (by decide : (0 : Int) ≤ 12)
    have hmod := Int.tmod_nonneg 12 hneg
    rw [Int.neg_tdiv] at hdiv
    rw [Int.neg_tmod] at hmod
    exact .inl ⟨by omega, by omega⟩

theorem proper_ofInterval (i : Interval) : (ofInterval i).Proper := by
  have hclock : ∀ c ∈ (ofInterval i).clock, ∃ u, c = .ofMicroseconds u := by
    intro c hc
    rw [ofInterval] at hc
    dsimp only at hc
    split at hc
    next => cases hc
    next => exact ⟨_, (Option.mem_some.1 hc).symm⟩
  refine ⟨tdiv_tmod_direction i.months.toInt, fun c hc => ?_, fun c hc => ?_, fun c hc => ?_⟩
  · obtain ⟨u, rfl⟩ := hclock c hc
    exact Nat.mod_lt _ (by decide)
  · obtain ⟨u, rfl⟩ := hclock c hc
    exact Nat.mod_lt _ (by decide)
  · obtain ⟨u, rfl⟩ := hclock c hc
    simp only [Clock.ofMicroseconds]
    exact getLast?_fractionDigits

theorem toNat_abs_toUInt64 (n : Int64) : n.abs.toUInt64.toNat = n.toInt.natAbs := by
  have hlt := n.toBitVec.isLt
  change n.toBitVec.abs.toNat = n.toBitVec.toInt.natAbs
  rw [BitVec.toNat_abs, BitVec.toInt_eq_msb_cond]
  split <;> omega

theorem toInt_abs_toInt64 (n : Int32) : n.toInt64.abs.toInt = n.toInt.natAbs := by
  have hbounds : -2147483648 ≤ n.toInt ∧ n.toInt < 2147483648 := ⟨n.le_toInt, n.toInt_lt⟩
  have habs : n.toInt64.abs.toBitVec.toNat = n.toInt.natAbs := by
    rw [← Int32.toInt_toInt64]
    exact toNat_abs_toUInt64 n.toInt64
  change n.toInt64.abs.toBitVec.toInt = n.toInt.natAbs
  rw [BitVec.toInt_eq_toNat_cond, habs]
  split <;> omega

theorem exact_ofInterval (i : Interval) : (ofInterval i).Exact i := by
  have hyears : (i.months / 12).toInt = i.months.toInt.tdiv 12 := by
    have hbounds : -2147483648 ≤ i.months.toInt ∧ i.months.toInt < 2147483648 :=
      ⟨i.months.le_toInt, i.months.toInt_lt⟩
    have hsum := Int.mul_tdiv_add_tmod i.months.toInt 12
    have htwelve : (12 : Int32).toInt = 12 := rfl
    have hdirection := tdiv_tmod_direction i.months.toInt
    rw [Int32.toInt_div, htwelve]
    exact Int.bmod_eq_of_le (by omega) (by omega)
  have hmonths : (i.months % 12).toInt = i.months.toInt.tmod 12 := Int32.toInt_mod _ _
  refine ⟨hyears, hmonths, ?_, ?_, toInt_abs_toInt64 i.days, ?_⟩
  · rw [toInt_abs_toInt64, hyears, ofInterval]
  · rw [toInt_abs_toInt64, hmonths, ofInterval]
  · rw [toNat_abs_toUInt64, (shows_ofInterval i).microseconds_eq]

end Form

/-- The text of an interval settles the interval. It is read as a form that has the months, the days
and the microseconds of the interval and is as forms are to be, and no number on the way to the text
is too large for the machine. -/
theorem Interval.exists_form (i : Interval) :
    ∃ s f, (Native.interval i).render = .str s ∧ Form.ofString? s = some f ∧
      f.Shows i ∧ f.Proper ∧ f.Exact i :=
  ⟨i.render, .ofInterval i, rfl, Form.ofString?_render i, Form.shows_ofInterval i,
    Form.proper_ofInterval i, Form.exact_ofInterval i⟩

end SqlGate.Native
