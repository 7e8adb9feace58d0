import SqlGate.Json.Cursor

/-!
# Reading numerals

An integer that fits 64 bits is kept exactly. Any other numeral is read as a double: as many of
its leading digits as fit an unsigned 64-bit number are taken exactly, rounded to a double, and
scaled by a power of ten in double arithmetic, one rounding a step.
-/

namespace SqlGate.Json

open Number

/-- The largest unsigned 64-bit number. -/
def maxUnsigned : Nat := 18446744073709551615

/-- The largest 32-bit exponent. -/
def maxExponent : Nat := 2147483647

/-- A double of a non-negative finite value as numerator and denominator. -/
def doubleQuotient (x : Double) : Nat × Nat :=
  match x.value with
  | .finite _ m e => binaryQuotient m e
  | _ => (0, 1)

/-- The double nearest to `10 ^ k`. -/
def powerOfTen (k : Nat) : Double := Double.ofQuotient false (Nat.pow 10 k) 1

/-- The product of two non-negative doubles. -/
def timesDouble (x y : Double) : Double :=
  let (a, b) := doubleQuotient x
  let (c, d) := doubleQuotient y
  Double.ofQuotient false (a * c) (b * d)

/-- The quotient of two positive doubles. -/
def overDouble (x y : Double) : Double :=
  let (a, b) := doubleQuotient x
  let (c, d) := doubleQuotient y
  Double.ofQuotient false (a * d) (b * c)

/-- A non-negative double scaled by a power of ten; the largest power applied at once is the 308th.
`none` when the result is out of range. Below the smallest double nothing is left to scale. -/
def scaleTen : Nat → Double → Int → Option Double
  | 0, x, _ => some x
  | fuel + 1, x, e =>
    if e.natAbs ≤ 308 then
      if 0 ≤ e then
        let y := timesDouble x (powerOfTen e.natAbs)
        if y.isInfinite then none else some y
      else some (overDouble x (powerOfTen e.natAbs))
    else if x.bits = 0 then some x
    else if 0 ≤ e then none
    else scaleTen fuel (overDouble x (powerOfTen 308)) (e + 308)

/-- The double of a significand and a decimal exponent, with a sign. After three steps of 308
places every significand has vanished. -/
def scaled (negative : Bool) (significand : Nat) (exponent : Int) : Option Double :=
  (scaleTen 5 (Double.ofQuotient false significand 1) exponent).map fun x =>
    Double.ofMagnitude negative x.bits.toNat

/-- The value of a decimal digit. -/
def digitValue? (c : Char) : Option Nat :=
  if '0' ≤ c ∧ c ≤ '9' then some (c.toNat - 48) else none

namespace Numeral

/-- What a numeral becomes, with the cursor after it. -/
abbrev Outcome := Except Fault (Num × Cursor)

/-- The double of the parts read, or the fault of one out of range. -/
def finish (negative : Bool) (significand : Nat) (exponent : Int) (c : Cursor) : Outcome :=
  match scaled negative significand exponent with
  | some x => .ok (.real x, c)
  | none => .error (c.fail .numberOutOfRange)

/-- The cursor after a run of digits, and the run. -/
def digitRun (c : Cursor) : List Nat × Cursor :=
  let run := c.rest.takeWhile (fun x => (digitValue? x).isSome)
  (run.filterMap digitValue?, ⟨c.rest.drop run.length, Cursor.placeAfter c.place run⟩)

/-- Digits appended to a number as long as it stays below a limit; the rest of them is returned. -/
def accumulate (limit : Nat) : Nat → List Nat → Nat × List Nat
  | n, [] => (n, [])
  | n, d :: ds => if n * 10 + d ≤ limit then accumulate limit (n * 10 + d) ds else (n, d :: ds)

/-- The exponent part, the cursor standing at its letter. -/
def exponent (negative : Bool) (significand : Nat) (start : Int) (c : Cursor) : Outcome :=
  let c := c.advance
  let (negativeExponent, c) := match c.peek? with
    | some '+' => (false, c.advance)
    | some '-' => (true, c.advance)
    | _ => (false, c)
  match c.peek? with
  | none => .error (c.fail .eofInValue)
  | some x =>
    if (digitValue? x).isNone then .error (c.advance.fail .invalidNumber)
    else
      let (ds, after) := digitRun c
      match accumulate maxExponent 0 ds with
      | (n, []) =>
        finish negative significand (if negativeExponent then start - n else start + n) after
      | (_, left) =>
        -- the exponent itself is out of range
        if significand ≠ 0 ∧ ¬ negativeExponent then
          let read := c.rest.take (ds.length - left.length + 1)
          .error (Cursor.fail .numberOutOfRange ⟨[], Cursor.placeAfter c.place read⟩)
        else .ok (.real (Double.zero negative), after)

/-- Whether the next character starts an exponent. -/
def atExponent (c : Cursor) : Bool := c.peek? = some 'e' || c.peek? = some 'E'

/-- The fraction, the cursor standing at the point. Digits beyond what the significand holds are
read and dropped. -/
def fraction (negative : Bool) (significand : Nat) (start : Int) (c : Cursor) : Outcome :=
  let c := c.advance
  let (ds, after) := digitRun c
  match ds with
  | [] => .error (c.failPeek (if c.rest.isEmpty then .eofInValue else .invalidNumber))
  | _ =>
    let (s, dropped) := accumulate maxUnsigned significand ds
    let e := start - (ds.length - dropped.length : Nat)
    if atExponent after then exponent negative s e after else finish negative s e after

/-- What follows an integer part that fits 64 bits. -/
def integral (negative : Bool) (significand : Nat) (c : Cursor) : Outcome :=
  if c.peek? = some '.' then fraction negative significand 0 c
  else if atExponent c then exponent negative significand 0 c
  else if ¬ negative then .ok (.int significand, c)
  else if significand = 0 ∨ 9223372036854775808 < significand then
    .ok (.real (Double.ofQuotient true significand 1), c)
  else .ok (.int (-(significand : Int)), c)

/-- A numeral whose sign, if any, has been read. -/
def read (negative : Bool) (c : Cursor) : Outcome :=
  match c.peek? with
  | none => .error (c.fail .eofInValue)
  | some x =>
    match digitValue? x with
    | none => .error (c.advance.fail .invalidNumber)
    | some 0 =>
      let c := c.advance
      match c.peek?.bind digitValue? with
      | some _ => .error (c.failPeek .invalidNumber)
      | none => integral negative 0 c
    | some _ =>
      let (ds, after) := digitRun c
      match accumulate maxUnsigned 0 ds with
      | (n, []) => integral negative n after
      | (n, left) =>
        let e : Int := left.length
        if after.peek? = some '.' then fraction negative n e after
        else if atExponent after then exponent negative n e after
        else finish negative n e after

end Numeral

end SqlGate.Json
