import SqlGate.Number.Shortest

/-!
# Texts of floating-point numbers

Two written forms of the shortest decimal: the positional one, which never has an exponent, and
the scientific one of JSON output, which has an exponent outside a middle range of sizes.
-/

namespace SqlGate.Number

/-- Digits with the point after the first `point` of them, zeros filling the gap on either side.
Whole numbers get `whole` appended. -/
def positional (whole : String) (d : Decimal) : String :=
  let ds := Text.digits d.digits
  let n := ds.length
  let point := d.point
  if point ≤ 0 then "0." ++ Text.zeros (-point).toNat ++ String.ofList ds
  else if (n : Int) ≤ point then String.ofList ds ++ Text.zeros (point.toNat - n) ++ whole
  else String.ofList (ds.take point.toNat) ++ "." ++ String.ofList (ds.drop point.toNat)

/-- One digit before the point, the rest after it, and a signed exponent. -/
def scientific (d : Decimal) : String :=
  let ds := Text.digits d.digits
  let exponent := d.point - 1
  let mantissa := match ds with
    | [] => "0"
    | [c] => String.ofList [c]
    | c :: r => String.ofList (c :: '.' :: r)
  mantissa ++ "e" ++ (if 0 ≤ exponent then "+" else "-") ++ Text.decimal exponent.natAbs

/-- The JSON form of a positive decimal: positional for exponents from -5 to 15, with `.0` after
whole numbers, and scientific elsewhere. -/
def jsonDecimal (d : Decimal) : String :=
  let exponent := d.point - 1
  if -5 ≤ exponent ∧ exponent ≤ 15 then positional ".0" d else scientific d

/-- A text with a minus sign in front of it when negative. -/
def signed (negative : Bool) (s : String) : String := if negative then "-" ++ s else s

/-- The JSON text of a finite double; `none` for the others. -/
def Double.json? (x : Double) : Option String :=
  match x.value with
  | .finite negative m _ =>
    if m = 0 then some (signed negative "0.0")
    else some (signed negative (jsonDecimal (shortest double (x.bits.toNat % double.signBit))))
  | _ => none

/-- The JSON text of a double, `null` for one JSON cannot carry. -/
def Double.json (x : Double) : String := x.json?.getD "null"

/-- The positional text of a finite number of a format. -/
def positionalText (f : Format) (negative : Bool) (magnitude : Nat) : String :=
  signed negative (if magnitude = 0 then "0" else positional "" (shortest f magnitude))

/-- The texts of the values that are not finite. -/
def nonFinite (negative : Bool) : String := if negative then "-Infinity" else "Infinity"

/-- The positional text of a double, with names for the values that are not finite. -/
def Double.plain (x : Double) : String :=
  match x.value with
  | .nan => "NaN"
  | .infinity negative => nonFinite negative
  | .finite negative _ _ => positionalText double negative (x.bits.toNat % double.signBit)

/-- A single-precision number as the double that its own shortest decimal names. -/
def Single.widen (x : Single) : Double :=
  match x.value with
  | .nan => ⟨0x7FF8000000000000⟩
  | .infinity negative => Double.ofMagnitude negative double.infinite
  | .finite negative m _ =>
    if m = 0 then Double.zero negative
    else
      let d := shortest single (x.bits.toNat % single.signBit)
      Double.ofDecimal negative d.digits d.exponent

end SqlGate.Number
