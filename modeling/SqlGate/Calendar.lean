import SqlGate.Text.Basic

/-!
# Calendar dates and clock times

The proleptic Gregorian calendar over all years, days being counted from 1970-01-01. A time of day
is seconds since midnight and nanoseconds of the second; a leap second is the last second of a
minute with a nanosecond count of one second or more.
-/

namespace SqlGate.Calendar

/-- A calendar date. -/
structure YearMonthDay where
  year : Int
  month : Nat
  day : Nat
  deriving Repr, DecidableEq

/-- The date of a day counted from 1970-01-01. Years are counted from March, so that a leap day is
the last of its year, and in cycles of 400 years, each of which has the same number of days. -/
def dateOfDay (days : Int) : YearMonthDay :=
  let z := days + 719468
  let cycle := z / 146097
  let dayOfCycle := (z % 146097).toNat
  let yearOfCycle :=
    (dayOfCycle - dayOfCycle / 1460 + dayOfCycle / 36524 - dayOfCycle / 146096) / 365
  let dayOfYear := dayOfCycle - (365 * yearOfCycle + yearOfCycle / 4 - yearOfCycle / 100)
  let fromMarch := (5 * dayOfYear + 2) / 153
  let day := dayOfYear - (153 * fromMarch + 2) / 5 + 1
  let month := if fromMarch < 10 then fromMarch + 3 else fromMarch - 9
  let year := (yearOfCycle : Int) + cycle * 400 + (if month ≤ 2 then 1 else 0)
  ⟨year, month, day⟩

/-- The first and last day that a date may name: the years -262143 to 262142. -/
def firstDay : Int := -96465292
def lastDay : Int := 95026236

/-- A year: four digits from 0 to 9999, else a sign and at least four digits. -/
def yearText (y : Int) : String :=
  if 0 ≤ y ∧ y ≤ 9999 then Text.padNat 4 y.toNat
  else if y < 0 then "-" ++ Text.padNat 4 y.natAbs
  else "+" ++ Text.padNat 4 y.natAbs

/-- Year, month and day. -/
def dateText (d : YearMonthDay) : String :=
  yearText d.year ++ "-" ++ Text.padNat 2 d.month ++ "-" ++ Text.padNat 2 d.day

/-- A time of day. -/
structure ClockTime where
  seconds : Nat
  nanos : Nat
  deriving Repr, DecidableEq

/-- Hours, minutes and seconds; a leap second is the sixty-first of its minute. -/
def ClockTime.text (t : ClockTime) : String :=
  Text.padNat 2 (t.seconds / 3600) ++ ":" ++ Text.padNat 2 (t.seconds / 60 % 60) ++ ":" ++
    Text.padNat 2 (t.seconds % 60 + t.nanos / 1000000000)

/-- A moment: seconds since 1970-01-01T00:00:00Z and nanoseconds of the second. -/
structure Moment where
  seconds : Int
  nanos : Nat
  deriving Repr, DecidableEq

/-- The day of a moment. -/
def Moment.day (i : Moment) : Int := i.seconds / 86400

/-- The time of day of a moment. -/
def Moment.clock (i : Moment) : ClockTime := ⟨(i.seconds % 86400).toNat, i.nanos⟩

/-- A moment in Coordinated Universal Time, without a fraction when it is a whole second and with
six digits of one otherwise. -/
def Moment.text (i : Moment) : String :=
  let fraction :=
    if i.nanos = 0 then "" else "." ++ Text.padNat 6 (i.nanos % 1000000000 / 1000)
  dateText (dateOfDay i.day) ++ "T" ++ i.clock.text ++ fraction ++ "Z"

/-- The start of a day in Coordinated Universal Time. -/
def midnightText (day : Int) : String := Moment.text ⟨day * 86400, 0⟩

end SqlGate.Calendar
