import SqlGate.Number.Binary
import SqlGate.Text.Basic

/-!
# The shortest decimal that reads back

A finite number of a binary format is written with the fewest decimal digits that round to it, and
among those with the digits nearest to its exact value. The candidates of a length are the two
neighbours of the exact value on the decimal grid of that length: if any decimal of the length
reads back, one of these does.
-/

namespace SqlGate.Number

/-- A positive decimal `digits · 10 ^ exponent`. -/
structure Decimal where
  digits : Nat
  exponent : Int
  deriving Repr, DecidableEq

namespace Decimal

/-- The magnitude bits of the number of a format nearest to a decimal. -/
def nearest (f : Format) (d : Decimal) : Nat :=
  let (num, den) := Double.decimalQuotient d.digits d.exponent
  f.nearest num den

/-- How many digits the decimal has. -/
def length (d : Decimal) : Nat := (Text.digits d.digits).length

/-- The position of the point: the decimal lies in `[10 ^ (point - 1), 10 ^ point)`. -/
def point (d : Decimal) : Int := d.length + d.exponent

end Decimal

/-- A quotient `num / den` scaled by `10 ^ (-e)`, as numerator and denominator. -/
def decimalScale (num den : Nat) (e : Int) : Nat × Nat :=
  if 0 ≤ e then (num, den * Nat.pow 10 e.toNat) else (num * Nat.pow 10 (-e).toNat, den)

/-- `significand · 2 ^ exponent` as numerator and denominator. -/
def binaryQuotient (m : Nat) (e : Int) : Nat × Nat :=
  if 0 ≤ e then (m * Nat.pow 2 e.toNat, 1) else (m, Nat.pow 2 (-e).toNat)

/-- How many digits the integer part of a quotient has, or minus the number of zeros after the
point when there is none. -/
def decimalPoint (num den : Nat) : Int :=
  if den ≤ num then (Text.digits (num / den)).length
  else
    -- the inverse has one digit more than there are zeros, unless it is a power of ten
    let inverse := (Text.digits ((den - 1) / num)).length
    1 - (inverse : Int)

/-- The decimals with exponent `e` next to a quotient, the nearer one first; of two equally near
the one with the even last digit. -/
def neighbours (num den : Nat) (e : Int) : List Decimal :=
  let (n, d) := decimalScale num den e
  let q := n / d
  let r := n % d
  if r = 0 then [⟨q, e⟩]
  else if 2 * r < d ∨ (2 * r = d ∧ q % 2 = 0) then [⟨q, e⟩, ⟨q + 1, e⟩]
  else [⟨q + 1, e⟩, ⟨q, e⟩]

/-- The first of the grids with `count`, `count + 1`, … digits that has a decimal reading back, at
most `fuel` grids being tried; after them the exact value. -/
def shortestFrom (f : Format) (magnitude num den : Nat) (point : Int) :
    Nat → Nat → Option Decimal
  | 0, _ => none
  | fuel + 1, count =>
    match (neighbours num den (point - count)).find? (fun d => d.nearest f = magnitude) with
    | some d => some d
    | none => shortestFrom f magnitude num den point fuel (count + 1)

/-- The exact decimal value of `m · 2 ^ e`. -/
def exactDecimal (m : Nat) (e : Int) : Decimal :=
  if 0 ≤ e then ⟨m * Nat.pow 2 e.toNat, 0⟩ else ⟨m * Nat.pow 5 (-e).toNat, e⟩

/-- The decimal without trailing zeros; `fuel` bounds how many are dropped. -/
def Decimal.trim : Nat → Decimal → Decimal
  | 0, d => d
  | fuel + 1, d =>
    if d.digits ≠ 0 ∧ d.digits % 10 = 0 then Decimal.trim fuel ⟨d.digits / 10, d.exponent + 1⟩
    else d

/-- The shortest decimal of a positive finite magnitude. -/
def shortest (f : Format) (magnitude : Nat) : Decimal :=
  let (m, e) := f.split magnitude
  let (num, den) := binaryQuotient m e
  let d := (shortestFrom f magnitude num den (decimalPoint num den) 17 1).getD (exactDecimal m e)
  d.trim d.length

end SqlGate.Number
