import SqlGate.Document
import SqlGate.Text.Basic

/-!
# Spans of time

A span is a whole number of nanoseconds. People write it as numbers with units, such as `1h 30m`
or `1.5s`; `ofString?` reads that, and `text` writes the parts from years down to nanoseconds that
are not zero. `debug` writes a span in the largest of four units that it reaches, with the fraction
that is left. A year is 365.25 days and a month a twelfth of it.

Sums and products stay below two to the 64th seconds and nanoseconds, or the text is refused.
-/

namespace SqlGate

/-- A span of time. -/
structure Duration where
  nanos : Nat
  deriving Repr, DecidableEq

namespace Duration

/-- Whole seconds. -/
def ofSecs (n : Nat) : Duration := ⟨n * 1000000000⟩

/-- Whole milliseconds. -/
def ofMillis (n : Nat) : Duration := ⟨n * 1000000⟩

/-- The whole seconds of a span. -/
def secs (d : Duration) : Nat := d.nanos / 1000000000

/-- The nanoseconds of a span beyond its whole seconds. -/
def subsecNanos (d : Duration) : Nat := d.nanos % 1000000000

/-- The whole milliseconds of a span. -/
def millis (d : Duration) : Nat := d.nanos / 1000000

/-- Whether a span has no length. -/
def isZero (d : Duration) : Bool := d.nanos = 0

/-! ## Reading -/

/-- A unit of time. -/
inductive TimeUnit where
  | nanosecond
  | microsecond
  | millisecond
  | second
  | minute
  | hour
  | day
  | week
  | month
  | year
  deriving Repr, DecidableEq

namespace TimeUnit

/-- The unit of a name. -/
def ofString? (s : String) : Option TimeUnit :=
  if ["nanos", "nsec", "ns"].contains s then some nanosecond
  else if ["usec", "us", "µs"].contains s then some microsecond
  else if ["millis", "msec", "ms"].contains s then some millisecond
  else if ["seconds", "second", "secs", "sec", "s"].contains s then some second
  else if ["minutes", "minute", "min", "mins", "m"].contains s then some minute
  else if ["hours", "hour", "hrs", "hr", "h"].contains s then some hour
  else if ["days", "day", "d"].contains s then some day
  else if ["weeks", "week", "wk", "wks", "w"].contains s then some week
  else if ["months", "month", "M"].contains s then some month
  else if ["years", "year", "yr", "yrs", "y"].contains s then some year
  else none

/-- The seconds and nanoseconds that a number of units is worth each. -/
def size : TimeUnit → Nat × Nat
  | nanosecond => (0, 1)
  | microsecond => (0, 1000)
  | millisecond => (0, 1000000)
  | second => (1, 0)
  | minute => (60, 0)
  | hour => (3600, 0)
  | day => (86400, 0)
  | week => (604800, 0)
  | month => (2630016, 0)
  | year => (31557600, 0)

/-- The seconds and nanoseconds that a fraction of a unit is counted in; a fraction of a nanosecond
has no span. Spans of hours and more are counted in whole seconds. -/
def fractionSize : TimeUnit → Option (Nat × Nat)
  | nanosecond => none
  | second => some (0, 1000000000)
  | minute => some (0, 60000000000)
  | u => some u.size

end TimeUnit

/-- Why a text is no span. -/
inductive Fault where
  | empty
  | numberExpected (offset : Nat)
  | invalidCharacter (offset : Nat)
  | unknownUnit (name : String) (value : Nat)
  | overflow
  deriving Repr, DecidableEq

/-- The wording of a fault. -/
def Fault.message : Fault → String
  | empty => "value was empty"
  | numberExpected n => s!"expected number at {n}"
  | invalidCharacter n => s!"invalid character at {n}"
  | unknownUnit "" n => s!"time unit needed, for example {n}sec or {n}ms"
  | unknownUnit name _ =>
    "unknown time unit " ++ Json.shown name ++ ", supported units: ns, us/µs, ms, sec, min, " ++
      "hours, days, weeks, months, years (and few variations)"
  | overflow =>
    "number is too large or cannot be represented without a lack of precision " ++
      "(values below 1ns are not supported)"

/-- A number, if it has 64 bits. -/
def word? (n : Nat) : Except Fault Nat := if n < Nat.pow 2 64 then .ok n else .error .overflow

/-- The value of a digit. -/
def digit? (c : Char) : Option Nat := if c.isDigit then some (c.toNat - 48) else none

/-- The letters that units are made of. -/
def isUnitLetter (c : Char) : Bool := c.isAlpha || c = 'µ'

/-- The unread characters, with the bytes read before them. -/
structure Place where
  rest : List Char
  offset : Nat

/-- The place after one character. -/
def Place.after (p : Place) (c : Char) (rest : List Char) : Place := ⟨rest, p.offset + c.utf8Size⟩

/-- The digits of a number go on, blanks between them not counting; gives the number, whether a
point ended it, and the place of what did. -/
def wholePart : Nat → List Char → Nat → Except Fault (Nat × Bool × Place)
  | n, [], k => .ok (n, false, ⟨[], k⟩)
  | n, c :: r, k =>
    match digit? c with
    | some d => do
      let n ← word? (n * 10)
      wholePart (← word? (n + d)) r (k + 1)
    | none =>
      if Text.isBlank c then wholePart n r (k + c.utf8Size)
      else if isUnitLetter c then .ok (n, false, ⟨c :: r, k⟩)
      else if c = '.' then .ok (n, true, ⟨r, k + 1⟩)
      else .error (.invalidCharacter k)

/-- A fraction. -/
structure Fraction where
  numerator : Nat
  denominator : Nat

/-- The digits of a fraction. A fault names the place before the digit read last. -/
def fractionPart : Fraction → List Char → Nat → Nat → Except Fault (Fraction × Place)
  | f, [], k, shown => finish f [] k shown
  | f, c :: r, k, shown =>
    match digit? c with
    | some d => do
      let q ← word? (f.denominator * 10)
      let n ← word? (f.numerator * 10)
      fractionPart ⟨← word? (n + d), q⟩ r (k + 1) (k + 1)
    | none =>
      if Text.isBlank c then fractionPart f r (k + c.utf8Size) (k + c.utf8Size)
      else if isUnitLetter c then finish f (c :: r) k shown
      else .error (.invalidCharacter shown)
where
  /-- A fraction needs a digit. -/
  finish (f : Fraction) (rest : List Char) (k shown : Nat) : Except Fault (Fraction × Place) :=
    if f.denominator = 1 then .error (.invalidCharacter shown) else .ok (f, ⟨rest, k⟩)

/-- The name of a unit: the letters up to a digit or a blank; gives the name and what comes after
it, less a blank. -/
def unitName : List Char → List Char → Nat → Except Fault (List Char × Place)
  | name, [], k => .ok (name, ⟨[], k⟩)
  | name, c :: r, k =>
    if c.isDigit then .ok (name, ⟨c :: r, k⟩)
    else if Text.isBlank c then .ok (name, ⟨r, k + c.utf8Size⟩)
    else if isUnitLetter c then unitName (name ++ [c]) r (k + c.utf8Size)
    else .error (.invalidCharacter k)

/-- A span with seconds and nanoseconds added. -/
def add (d : Duration) (secs nanos : Nat) : Except Fault Duration := do
  let n ← word? (d.subsecNanos + nanos)
  let s ← word? (secs + n / 1000000000)
  let s ← word? (d.secs + s)
  return ⟨s * 1000000000 + n % 1000000000⟩

/-- A quotient without rest. -/
def exactly (n d : Nat) : Except Fault Nat := if n % d = 0 then .ok (n / d) else .error .overflow

/-- A span with a number of units added. -/
def addUnits (out : Duration) (n : Nat) (f : Option Fraction) (name : String) :
    Except Fault Duration := do
  match TimeUnit.ofString? name with
  | none => .error (.unknownUnit name n)
  | some u =>
    let (s, k) := u.size
    let out ← out.add (← word? (n * s)) (← word? (n * k))
    match f with
    | none => return out
    | some f =>
      match u.fractionSize with
      | none => .error .overflow
      | some (s, k) =>
        let s ← exactly (← word? (f.numerator * s)) f.denominator
        let k ← exactly (← word? (f.numerator * k)) f.denominator
        out.add s k

/-- The numbers with units from a place on, added to a span. -/
def partsFrom : Nat → Place → Duration → Except Fault (Option Duration)
  | 0, _, _ => .ok none
  | fuel + 1, p, out =>
    let blanks := p.rest.takeWhile Text.isBlank
    let k := blanks.foldl (fun k c => k + c.utf8Size) p.offset
    match p.rest.drop blanks.length with
    | [] => .ok none
    | c :: r =>
      match digit? c with
      | none => .error (.numberExpected k)
      | some d => do
        let (n, hasFraction, p) ← wholePart d r (k + 1)
        let (f, p) ←
          if hasFraction then do
            let (f, p) ← fractionPart ⟨0, 1⟩ p.rest p.offset (p.offset - 1)
            pure (some f, p)
          else pure (none, p)
        let (name, p) ← unitName [] p.rest p.offset
        let out ← out.addUnits n f (String.ofList name)
        match ← partsFrom fuel p out with
        | none => return some out
        | some out => return some out

/-- The span of a text. -/
def ofString (s : String) : Except Fault Duration := do
  if s = "0" then return ⟨0⟩
  match ← partsFrom (s.toList.length + 1) ⟨s.toList, 0⟩ ⟨0⟩ with
  | none => .error .empty
  | some d => return d

/-- The span of a document. -/
def ofDocument : Document.Read Duration := fun d => do
  match ofString (← d.string) with
  | .ok d => .ok d
  | .error f => .error (.refused f.message)

/-! ## Writing -/

/-- A part of a written span, if it is not zero. -/
def part (n : Nat) (unit : String) : List String := if n = 0 then [] else [s!"{n}" ++ unit]

/-- As `part` for a unit that has a plural. -/
def pluralPart (n : Nat) (unit : String) : List String :=
  if n = 0 then [] else if n = 1 then [s!"{n}" ++ unit] else [s!"{n}" ++ unit ++ "s"]

/-- A span by its parts. -/
def text (d : Duration) : String :=
  if d.isZero then "0s"
  else
    let inYear := d.secs % 31557600
    let inMonth := inYear % 2630016
    let inDay := inMonth % 86400
    let n := d.subsecNanos
    " ".intercalate (pluralPart (d.secs / 31557600) "year" ++
      pluralPart (inYear / 2630016) "month" ++ pluralPart (inMonth / 86400) "day" ++
      part (inDay / 3600) "h" ++ part (inDay % 3600 / 60) "m" ++ part (inDay % 60) "s" ++ part (n / 1000000) "ms" ++
      part (n / 1000 % 1000) "us" ++ part (n % 1000) "ns")

/-- A number with the given fraction of a unit of `size` parts behind the point, less the zeros at
its end. -/
def withFraction (whole fraction width : Nat) (unit : String) : String :=
  let ds := (Text.padNat width fraction).toList.reverse.dropWhile (· = '0')
  s!"{whole}" ++ (if ds.isEmpty then "" else "." ++ String.ofList ds.reverse) ++ unit

/-- A span in the largest unit that it reaches. -/
def debug (d : Duration) : String :=
  if 0 < d.secs then withFraction d.secs d.subsecNanos 9 "s"
  else if 1000000 ≤ d.nanos then withFraction (d.nanos / 1000000) (d.nanos % 1000000) 6 "ms"
  else if 1000 ≤ d.nanos then withFraction (d.nanos / 1000) (d.nanos % 1000) 3 "µs"
  else s!"{d.nanos}ns"

/-- A span as a document. -/
def toJson (d : Duration) : Json := .str d.text

end Duration

end SqlGate
