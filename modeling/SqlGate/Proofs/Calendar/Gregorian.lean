import Mathlib.Data.Int.Init
import Mathlib.Order.Monotone.Basic
import SqlGate.Calendar

/-!
# The proleptic Gregorian calendar

A year has twelve months, and a leap day in February if four divides it, except for the years that
a hundred divides and four hundred does not. The date after a date (`YearMonthDay.next`) and the one
before it follow from the lengths of the months alone, and counting them one by one gives the date
that many days away (`YearMonthDay.plus`).

`dateOfDay` finds the date of a day by division. It counts as the calendar does (`dateOfDay_add`),
gives dates that there are, and each day its own (`dateOfDay_injective`). For this a day is a place
in a year that begins with March (`IsDayOf`, `exists_isDayOf`): there the leap day comes last, so
the months are the same in every year.
-/

namespace SqlGate.Calendar

/-- Years that have a leap day. -/
def IsLeap (year : Int) : Prop := year % 4 = 0 ∧ (year % 100 ≠ 0 ∨ year % 400 = 0)

instance (year : Int) : Decidable (IsLeap year) := inferInstanceAs (Decidable (_ ∧ _))

/-- How many days a month has. -/
def monthLength (year : Int) (month : Nat) : Nat :=
  if month = 2 then if IsLeap year then 29 else 28
  else if month = 4 ∨ month = 6 ∨ month = 9 ∨ month = 11 then 30
  else 31

theorem monthLength_le (year : Int) (month : Nat) : monthLength year month ≤ 31 := by
  unfold monthLength
  split <;> split <;> omega

namespace YearMonthDay

/-- A date that there is. -/
structure Valid (x : YearMonthDay) : Prop where
  one_le_month : 1 ≤ x.month
  month_le : x.month ≤ 12
  one_le_day : 1 ≤ x.day
  day_le : x.day ≤ monthLength x.year x.month

/-- The date after a date. -/
def next (x : YearMonthDay) : YearMonthDay :=
  if x.day < monthLength x.year x.month then ⟨x.year, x.month, x.day + 1⟩
  else if x.month < 12 then ⟨x.year, x.month + 1, 1⟩
  else ⟨x.year + 1, 1, 1⟩

/-- The date before a date. -/
def previous (x : YearMonthDay) : YearMonthDay :=
  if 1 < x.day then ⟨x.year, x.month, x.day - 1⟩
  else if 1 < x.month then ⟨x.year, x.month - 1, monthLength x.year (x.month - 1)⟩
  else ⟨x.year - 1, 12, monthLength (x.year - 1) 12⟩

/-- The date that many days after a date, or before it, counted one by one. -/
def plus (x : YearMonthDay) : Int → YearMonthDay
  | .ofNat n => next^[n] x
  | .negSucc n => previous^[n + 1] x

/-- The years that a date may be of. -/
def Named (x : YearMonthDay) : Prop := -262143 ≤ x.year ∧ x.year ≤ 262142

instance (x : YearMonthDay) : Decidable x.Named := inferInstanceAs (Decidable (_ ∧ _))

theorem Valid.previous_next {x : YearMonthDay} (h : x.Valid) : x.next.previous = x := by
  obtain ⟨year, month, day⟩ := x
  obtain ⟨hmonth, hmonth', hday, hday'⟩ := h
  dsimp only at hmonth hmonth' hday hday'
  rw [next]
  dsimp only
  split
  next => simp only [previous, if_pos (Nat.lt_succ_of_le hday), Nat.add_sub_cancel]
  next hlast =>
    obtain rfl : day = monthLength year month := by omega
    split
    next => simp only [previous, Nat.lt_irrefl, if_false, if_pos (Nat.lt_succ_of_le hmonth),
      Nat.add_sub_cancel]
    next hdecember =>
      obtain rfl : month = 12 := by omega
      simp only [previous, Nat.lt_irrefl, if_false, Int.add_sub_cancel]

/-- Dates in their order. -/
def rank (x : YearMonthDay) : Int := 10000 * x.year + 100 * x.month + x.day

theorem Valid.rank_bounds {x : YearMonthDay} (h : x.Valid) :
    10000 * x.year + 101 ≤ x.rank ∧ x.rank ≤ 10000 * x.year + 1231 := by
  obtain ⟨hmonth, hmonth', hday, hday'⟩ := h
  have hlength := monthLength_le x.year x.month
  unfold rank
  omega

theorem Valid.rank_lt_rank_next {x : YearMonthDay} (h : x.Valid) : x.rank < x.next.rank := by
  have hbounds := h.rank_bounds
  have hlength := monthLength_le x.year x.month
  have hday' := h.day_le
  unfold next rank at *
  split
  next => dsimp only; omega
  next =>
    split
    · dsimp only; omega
    · dsimp only; omega

end YearMonthDay

/-! ## Years from March on -/

/-- The date of a day of a year that begins with March. -/
def dateInYear (year : Int) (n : Nat) : YearMonthDay :=
  let fromMarch := (5 * n + 2) / 153
  let month := if fromMarch < 10 then fromMarch + 3 else fromMarch - 9
  ⟨year + if month ≤ 2 then 1 else 0, month, n - (153 * fromMarch + 2) / 5 + 1⟩

/-- The first of March of a year, counted from 1970-01-01. -/
def yearStart (year : Int) : Int :=
  365 * year + year / 4 - year / 100 + year / 400 - 719468

/-- A year from March on has a day more if the leap day at its end is there. -/
def IsDayOf (year : Int) (n : Nat) : Prop := n < 365 ∨ n = 365 ∧ IsLeap (year + 1)

theorem yearStart_succ (year : Int) :
    yearStart (year + 1) = yearStart year + 365 + if IsLeap (year + 1) then 1 else 0 := by
  by_cases h : IsLeap (year + 1)
  · rw [if_pos h]
    unfold yearStart IsLeap at *
    omega
  · rw [if_neg h]
    unfold yearStart IsLeap at *
    omega

/-- The year of a day of a cycle of 400 years, from the place of the day in centuries, spans of four
years and years. -/
theorem yearOfCycle_eq {a c d n : Nat} (ha : a < 4) (hc : c < 25) (hd : d < 4)
    (hn : n < 365 ∨ n = 365 ∧ d = 3 ∧ (c = 24 → a = 3)) :
    let z := 36524 * a + 1461 * c + 365 * d + n
    (z - z / 1460 + z / 36524 - z / 146096) / 365 = 100 * a + 4 * c + d := by
  intro z
  let e := (24 * a + c + 365 * d + n) / 1460
  have hcentury : z / 36524 - z / 146096 = a ∧ z / 146096 ≤ z / 36524 := by
    by_cases hlast : c = 24 ∧ d = 3 ∧ n = 365
    · -- The last day of the cycle is one too many for its last century.
      obtain ⟨rfl, rfl, rfl⟩ := hlast
      obtain rfl : a = 3 := by omega
      omega
    · have hrest : 1461 * c + 365 * d + n < 36524 := by omega
      omega
  have hspan : z / 1460 = 25 * a + c + e := by omega
  have he : e ≤ n ∧ n - e < 365 := by omega
  omega

/-- The days before a year of a cycle of 400 years. -/
theorem daysBefore_eq {a c d : Nat} (hc : c < 25) (hd : d < 4) :
    let y := 100 * a + 4 * c + d
    365 * y + y / 4 - y / 100 = 36524 * a + 1461 * c + 365 * d := by
  intro y
  have hspans : y / 4 = 25 * a + c := by omega
  have hcenturies : y / 100 = a := by omega
  omega

theorem cycle_eq (k : Int) {z : Nat} (h : z < 146097) :
    (146097 * k + z - 719468 + 719468) / 146097 = k ∧
      ((146097 * k + z - 719468 + 719468) % 146097).toNat = z := by
  omega

theorem dateOfDay_cycle (k : Int) {a c d n : Nat} (ha : a < 4) (hc : c < 25) (hd : d < 4)
    (hn : n < 365 ∨ n = 365 ∧ d = 3 ∧ (c = 24 → a = 3)) :
    dateOfDay (146097 * k + (36524 * a + 1461 * c + 365 * d + n : Nat) - 719468) =
      dateInYear (400 * k + (100 * a + 4 * c + d : Nat)) n := by
  have hlt : 36524 * a + 1461 * c + 365 * d + n < 146097 := by omega
  obtain ⟨hcycle, hday⟩ := cycle_eq k hlt
  unfold dateOfDay dateInYear
  simp only [hcycle, hday, yearOfCycle_eq ha hc hd hn, daysBefore_eq hc hd, Nat.add_sub_cancel_left]
  rw [Int.mul_comm, Int.add_comm _ (400 * k)]

/-- The date of a day of a year from March on. -/
theorem dateOfDay_yearStart_add {y : Int} {n : Nat} (h : IsDayOf y n) :
    dateOfDay (yearStart y + n) = dateInYear y n := by
  -- Of the years of a cycle, the last one of a century has a leap day only in the last century.
  obtain ⟨r, hr⟩ : ∃ r : Nat, (r : Int) = y % 400 := ⟨(y % 400).toNat, by omega⟩
  have hr400 : r < 400 := by omega
  have hleap : n < 365 ∨ n = 365 ∧ r % 4 = 3 ∧ (r % 100 / 4 = 24 → r / 100 = 3) := by
    unfold IsDayOf IsLeap at h
    omega
  have hcycle := dateOfDay_cycle (y / 400) (a := r / 100) (c := r % 100 / 4) (d := r % 4) (n := n)
    (by omega) (by omega) (by omega) hleap
  have hyear : 100 * (r / 100) + 4 * (r % 100 / 4) + r % 4 = r := by omega
  have hday : 146097 * (y / 400) +
      (36524 * (r / 100) + 1461 * (r % 100 / 4) + 365 * (r % 4) + n : Nat) - 719468 =
      yearStart y + n := by
    unfold yearStart
    omega
  rw [hday, hyear] at hcycle
  rw [hcycle]
  congr 1
  omega

/-- After a day there is another one of its year, or the first one of the next year. -/
theorem IsDayOf.succ {y : Int} {n : Nat} (h : IsDayOf y n) :
    IsDayOf y (n + 1) ∨ n = (if IsLeap (y + 1) then 365 else 364) ∧
      yearStart (y + 1) = yearStart y + n + 1 := by
  have hstart := yearStart_succ y
  split at hstart
  next hleap =>
    rw [if_pos hleap]
    rcases h with hlt | ⟨rfl, -⟩
    · rcases Nat.lt_or_ge (n + 1) 365 with hsucc | hge
      · exact .inl (.inl hsucc)
      · exact .inl (.inr ⟨by omega, hleap⟩)
    · exact .inr ⟨rfl, hstart⟩
  next hleap =>
    have hlt : n < 365 := h.resolve_right fun hn => hleap hn.2
    rw [if_neg hleap]
    rcases Nat.lt_or_ge (n + 1) 365 with hsucc | hge
    · exact .inl (.inl hsucc)
    · exact .inr ⟨by omega, by omega⟩

theorem isDayOf_pred {y : Int} {n : Nat} (h : IsDayOf y n) :
    ∃ y' n', IsDayOf y' n' ∧ yearStart y' + (n' : Nat) = yearStart y + n - 1 := by
  cases n with
  | succ n => exact ⟨y, n, .inl (by unfold IsDayOf at h; omega), by omega⟩
  | zero =>
      have hstart := yearStart_succ (y - 1)
      rw [Int.sub_add_cancel] at hstart
      split at hstart
      next hleap => exact ⟨y - 1, 365, .inr ⟨rfl, by rwa [Int.sub_add_cancel]⟩, by omega⟩
      next => exact ⟨y - 1, 364, .inl (by decide), by omega⟩

/-- Every day is a day of a year from March on. -/
theorem exists_isDayOf (day : Int) : ∃ y n, IsDayOf y n ∧ yearStart y + (n : Nat) = day := by
  induction day using Int.induction_on with
  | zero => exact ⟨1969, 306, .inl (by decide), by decide⟩
  | succ k ih =>
      obtain ⟨y, n, h, hday⟩ := ih
      rcases h.succ with hsucc | ⟨-, hstart⟩
      · exact ⟨y, n + 1, hsucc, by omega⟩
      · exact ⟨y + 1, 0, .inl (by decide), by omega⟩
  | pred k ih =>
      obtain ⟨y, n, h, hday⟩ := ih
      obtain ⟨y', n', h', hday'⟩ := isDayOf_pred h
      exact ⟨y', n', h', by omega⟩

/-! ## One day after another -/

/-- Inside a year from March on, the month and the day of the month do not hang on the year. -/
theorem monthDay_succ : ∀ n < 365,
    let x := dateInYear 0 n
    let x' := dateInYear 0 (n + 1)
    (x.month = 2 → x.day ≤ 28 ∧ (x.day = 28 → n = 364) ∧ x'.month = 2 ∧ x'.day = x.day + 1) ∧
    (x.month ≠ 2 → if x.day < monthLength 0 x.month then x'.month = x.month ∧ x'.day = x.day + 1
      else if x.month < 12 then x'.month = x.month + 1 ∧ x'.day = 1
      else x'.month = 1 ∧ x'.day = 1) := by
  decide +kernel

theorem valid_monthDay : ∀ n < 366,
    let x := dateInYear 0 n
    1 ≤ x.month ∧ x.month ≤ 12 ∧ 1 ≤ x.day ∧
      (x.month = 2 → x.day ≤ 28 ∨ n = 365 ∧ x.day = 29) ∧
      (x.month ≠ 2 → x.day ≤ monthLength 0 x.month) := by
  decide +kernel

theorem monthLength_of_ne (y : Int) {month : Nat} (h : month ≠ 2) :
    monthLength y month = monthLength 0 month := by
  rw [monthLength, monthLength, if_neg h, if_neg h]

theorem dateInYear_eq (y : Int) (n : Nat) :
    dateInYear y n = ⟨y + if (dateInYear 0 n).month ≤ 2 then 1 else 0, (dateInYear 0 n).month,
      (dateInYear 0 n).day⟩ := rfl

theorem valid_dateInYear {y : Int} {n : Nat} (h : IsDayOf y n) : (dateInYear y n).Valid := by
  have hn : n < 366 := by rcases h with h | ⟨h, -⟩ <;> omega
  obtain ⟨hlow, hhigh, hday, hfebruary, hother⟩ := valid_monthDay n hn
  refine ⟨hlow, hhigh, hday, ?_⟩
  rw [dateInYear_eq]
  dsimp only
  by_cases hm : (dateInYear 0 n).month = 2
  · rw [hm, monthLength, if_pos rfl, if_pos (by decide : 2 ≤ 2)]
    rcases hfebruary hm with hle | ⟨rfl, hleapDay⟩
    · split <;> omega
    · have hleap : IsLeap (y + 1) := (h.resolve_left (by decide)).2
      rw [if_pos hleap, hleapDay]
  · rw [monthLength_of_ne _ hm]
    exact hother hm

theorem next_dateInYear {y : Int} {n : Nat} (h : IsDayOf y (n + 1)) :
    (dateInYear y n).next = dateInYear y (n + 1) := by
  have hn : n < 365 := by rcases h with h | ⟨h, -⟩ <;> omega
  obtain ⟨hfebruary, hother⟩ := monthDay_succ n hn
  rw [dateInYear_eq y n, dateInYear_eq y (n + 1), YearMonthDay.next]
  dsimp only
  by_cases hm : (dateInYear 0 n).month = 2
  · obtain ⟨hle, hlast, hmonth, hday⟩ := hfebruary hm
    have hlt : (dateInYear 0 n).day < if IsLeap (y + 1) then 29 else 28 := by
      rcases h with hlt | ⟨-, hleap⟩
      · split <;> omega
      · rw [if_pos hleap]
        omega
    rw [hm, hmonth, hday, monthLength, if_pos rfl, if_pos (by decide : 2 ≤ 2), if_pos hlt]
  · have hother := hother hm
    rw [monthLength_of_ne _ hm]
    split at hother
    next hlt => rw [if_pos hlt, hother.1, hother.2]
    next hlt =>
      rw [if_neg hlt]
      split at hother
      next hmonth =>
        rw [if_pos hmonth, hother.1, hother.2]
        congr 2
        split <;> split <;> omega
      next hmonth =>
        rw [if_neg hmonth, hother.1, hother.2, if_neg (by omega), if_pos (by decide), Int.add_zero]

/-- The last day of a year from March on is the last one of February. -/
theorem next_dateInYear_last (y : Int) :
    (dateInYear y (if IsLeap (y + 1) then 365 else 364)).next = dateInYear (y + 1) 0 := by
  have hlast : dateInYear y 364 = ⟨y + 1, 2, 28⟩ := rfl
  have hleapDay : dateInYear y 365 = ⟨y + 1, 2, 29⟩ := rfl
  have hfirst : dateInYear (y + 1) 0 = ⟨y + 1 + 0, 3, 1⟩ := rfl
  split
  next h => simp [hleapDay, hfirst, YearMonthDay.next, monthLength, h]
  next h => simp [hlast, hfirst, YearMonthDay.next, monthLength, h]

/-- The date of the day after is the date after. -/
theorem dateOfDay_succ (day : Int) : dateOfDay (day + 1) = (dateOfDay day).next := by
  obtain ⟨y, n, h, rfl⟩ := exists_isDayOf day
  rw [dateOfDay_yearStart_add h]
  rcases h.succ with hsucc | ⟨rfl, hstart⟩
  · rw [next_dateInYear hsucc, ← dateOfDay_yearStart_add hsucc, Int.natCast_add, Int.add_assoc]
    rfl
  · have hzero := dateOfDay_yearStart_add (y := y + 1) (n := 0) (.inl (by decide))
    rw [next_dateInYear_last, ← hzero, hstart]
    congr 1
    omega

theorem valid_dateOfDay (day : Int) : (dateOfDay day).Valid := by
  obtain ⟨y, n, h, rfl⟩ := exists_isDayOf day
  rw [dateOfDay_yearStart_add h]
  exact valid_dateInYear h

theorem dateOfDay_pred (day : Int) : dateOfDay (day - 1) = (dateOfDay day).previous := by
  have hnext := dateOfDay_succ (day - 1)
  rw [Int.sub_add_cancel] at hnext
  rw [hnext, (valid_dateOfDay (day - 1)).previous_next]

/-- Days are counted from any date one by one. -/
theorem dateOfDay_add (day : Int) (n : Int) : dateOfDay (day + n) = (dateOfDay day).plus n := by
  cases n with
  | ofNat n =>
      rw [YearMonthDay.plus]
      induction n with
      | zero => rw [Function.iterate_zero_apply]; exact congrArg dateOfDay (Int.add_zero day)
      | succ n ih =>
          rw [Function.iterate_succ_apply', ← ih, ← dateOfDay_succ, Int.add_assoc]
          rfl
  | negSucc n =>
      rw [YearMonthDay.plus]
      induction n with
      | zero => exact dateOfDay_pred day
      | succ n ih =>
          rw [Function.iterate_succ_apply', ← ih, ← dateOfDay_pred, Int.add_sub_assoc]
          rfl

/-- The date that days are counted from. -/
def origin : YearMonthDay := ⟨1970, 1, 1⟩

theorem dateOfDay_eq_plus (day : Int) : dateOfDay day = origin.plus day := by
  have horigin : dateOfDay 0 = origin := by decide
  rw [← horigin, ← dateOfDay_add, Int.zero_add]

/-! ## The order of days -/

/-- Dates come in the order of their days. -/
theorem rank_le_rank_iff (day day' : Int) :
    (dateOfDay day).rank ≤ (dateOfDay day').rank ↔ day ≤ day' := by
  have hmono : StrictMono fun day => (dateOfDay day).rank :=
    strictMono_int_of_lt_succ fun day => by
      rw [dateOfDay_succ]
      exact (valid_dateOfDay day).rank_lt_rank_next
  exact hmono.le_iff_le

/-- Each day has a date of its own. -/
theorem dateOfDay_injective : Function.Injective dateOfDay := fun day day' h =>
  Int.le_antisymm ((rank_le_rank_iff day day').1 (Int.le_of_eq (congrArg YearMonthDay.rank h)))
    ((rank_le_rank_iff day' day).1 (Int.le_of_eq (congrArg YearMonthDay.rank h.symm)))

theorem dateOfDay_firstDay : dateOfDay firstDay = ⟨-262143, 1, 1⟩ := by decide

theorem dateOfDay_lastDay : dateOfDay lastDay = ⟨262142, 12, 31⟩ := by decide

/-- The days that a date may name are those of the years it may name. -/
theorem named_dateOfDay_iff (day : Int) :
    (dateOfDay day).Named ↔ firstDay ≤ day ∧ day ≤ lastDay := by
  have hbounds := (valid_dateOfDay day).rank_bounds
  have hfirst : firstDay ≤ day ↔ -2621429899 ≤ (dateOfDay day).rank := by
    rw [← rank_le_rank_iff, dateOfDay_firstDay]
    rfl
  have hlast : day ≤ lastDay ↔ (dateOfDay day).rank ≤ 2621421231 := by
    rw [← rank_le_rank_iff, dateOfDay_lastDay]
    rfl
  rw [hfirst, hlast, YearMonthDay.Named]
  omega

end SqlGate.Calendar
