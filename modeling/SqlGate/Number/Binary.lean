/-!
# Binary floating point in exact arithmetic

A floating-point number is its bit pattern. Decoding gives sign, significand and exponent as exact
integers, and `Format.nearest` rounds a quotient of natural numbers to the nearest number of a
format, a tie going to the even significand. All of it is `Nat` arithmetic, so every statement
about a result is one about integers.
-/

namespace SqlGate.Number

/-- A binary interchange format: bits of the significand, the hidden one included, and bits of the
exponent. -/
structure Format where
  precision : Nat
  exponentBits : Nat
  deriving Repr, DecidableEq

/-- Double precision. -/
def double : Format := ⟨53, 11⟩

/-- Single precision. -/
def single : Format := ⟨24, 8⟩

namespace Format

/-- `2 ^ (precision - 1)`, the least significand of a normal number. -/
def hidden (f : Format) : Nat := Nat.pow 2 (f.precision - 1)

/-- The magnitude bits of infinity; every finite magnitude lies below. -/
def infinite (f : Format) : Nat := (Nat.pow 2 f.exponentBits - 1) * f.hidden

/-- The exponent of the least positive number, which is a power of two. -/
def least (f : Format) : Int := 3 - (Nat.pow 2 (f.exponentBits - 1) : Int) - f.precision

/-- The weight of the sign bit. -/
def signBit (f : Format) : Nat := Nat.pow 2 (f.precision + f.exponentBits - 1)

end Format

/-- The value of a bit pattern. -/
inductive Value where
  | nan
  | infinity (negative : Bool)
  /-- `± significand · 2 ^ exponent`. -/
  | finite (negative : Bool) (significand : Nat) (exponent : Int)
  deriving Repr, DecidableEq

/-- The significand and exponent of finite magnitude bits. -/
def Format.split (f : Format) (magnitude : Nat) : Nat × Int :=
  let field := magnitude / f.hidden
  let fraction := magnitude % f.hidden
  if field = 0 then (fraction, f.least) else (f.hidden + fraction, f.least + (field - 1 : Nat))

/-- The value of a bit pattern of a format. -/
def Format.decode (f : Format) (bits : Nat) : Value :=
  let negative := f.signBit ≤ bits
  let magnitude := bits % f.signBit
  if magnitude < f.infinite then
    let (m, e) := f.split magnitude
    .finite negative m e
  else if magnitude = f.infinite then .infinity negative
  else .nan

/-- The quotient rounded to the nearest natural number, a tie to the even one. -/
def divNearest (num den : Nat) : Nat :=
  let q := num / den
  let r := num % den
  if den < 2 * r ∨ (2 * r = den ∧ q % 2 = 1) then q + 1 else q

/-- Numerator and denominator of `num / den · 2 ^ (-e)`. -/
def scaleDown (num den : Nat) (e : Int) : Nat × Nat :=
  if 0 ≤ e then (num, den * Nat.pow 2 e.toNat) else (num * Nat.pow 2 (-e).toNat, den)

/-- The exponent at which a positive quotient has as many significand bits as the format, or the
format's least one. -/
def Format.exponentOf (f : Format) (num den : Nat) : Int :=
  let estimate : Int := (num.log2 : Int) - den.log2 - f.precision
  let e := max estimate f.least
  let (n, d) := scaleDown num den e
  if n / d < Nat.pow 2 f.precision then e else e + 1

/-- The magnitude bits of the number nearest to a quotient; at or above `infinite` the quotient is
out of range. A carry out of the significand lands in the exponent field, where it belongs. -/
def Format.nearest (f : Format) (num den : Nat) : Nat :=
  if num = 0 then 0
  else
    let e := f.exponentOf num den
    let (n, d) := scaleDown num den e
    min ((e - f.least).toNat * f.hidden + divNearest n d) f.infinite

/-- A double by its bit pattern. -/
structure Double where
  bits : UInt64
  deriving Repr, DecidableEq

namespace Double

/-- The value of a double. -/
def value (x : Double) : Value := double.decode x.bits.toNat

/-- The double with a sign and magnitude bits. -/
def ofMagnitude (negative : Bool) (magnitude : Nat) : Double :=
  ⟨UInt64.ofNat (magnitude + if negative then double.signBit else 0)⟩

/-- The double nearest to a signed quotient. -/
def ofQuotient (negative : Bool) (num den : Nat) : Double :=
  ofMagnitude negative (double.nearest num den)

/-- A zero with a sign. -/
def zero (negative : Bool) : Double := ofMagnitude negative 0

/-- Whether a double is infinite. -/
def isInfinite (x : Double) : Bool :=
  match x.value with
  | .infinity _ => true
  | _ => false

/-- A decimal `digits · 10 ^ exponent` as a quotient of natural numbers. -/
def decimalQuotient (digits : Nat) (exponent : Int) : Nat × Nat :=
  if 0 ≤ exponent then (digits * Nat.pow 10 exponent.toNat, 1)
  else (digits, Nat.pow 10 (-exponent).toNat)

/-- The double nearest to a decimal. -/
def ofDecimal (negative : Bool) (digits : Nat) (exponent : Int) : Double :=
  let (num, den) := decimalQuotient digits exponent
  ofQuotient negative num den

end Double

/-- A single-precision number by its bit pattern. -/
structure Single where
  bits : UInt32
  deriving Repr, DecidableEq

/-- The value of a single-precision number. -/
def Single.value (x : Single) : Value := single.decode x.bits.toNat

end SqlGate.Number
