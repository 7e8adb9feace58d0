import SqlGate.Native.Value
import SqlGate.Wire.Reader

/-!
# Decimals on the wire

A decimal is a list of digits in base ten thousand, the power of the first one, a sign and the
number of decimal places shown. Its text is exact: the digits from the first power down to the
units, and as many places as the header announces.
-/

namespace SqlGate.Wire

/-- The header and digits of a decimal. -/
structure Decimal where
  weight : Int
  sign : Nat
  scale : Nat
  digits : List Int
  deriving Repr, DecidableEq

namespace Decimal

/-- The digit at a position, zero outside the list. -/
def digitAt (d : Decimal) (i : Int) : Int :=
  if 0 ≤ i then d.digits.getD i.toNat 0 else 0

/-- The texts of `n` digits from a position on, four places each. -/
def groupsFrom (d : Decimal) (start : Int) (n : Nat) : String :=
  String.join ((List.range n).map fun (k : Nat) => Text.padInt 4 (d.digitAt (start + k)))

/-- The integer part. -/
def integerText (d : Decimal) : String :=
  if d.weight < 0 then "0"
  else Text.decimal (d.digitAt 0) ++ d.groupsFrom 1 d.weight.toNat

/-- The decimal places. A group has at least four, so a quarter of the scale suffices. -/
def fractionText (d : Decimal) : String :=
  String.ofList ((d.groupsFrom (d.weight + 1) ((d.scale + 3) / 4)).toList.take d.scale)

/-- Whether the text has a minus sign: a zero has none. -/
def isNegative (d : Decimal) : Bool := d.sign = 0x4000 && !d.digits.all (· = 0)

/-- The exact text. -/
def text (d : Decimal) : String :=
  (if d.isNegative then "-" else "") ++ d.integerText ++
    (if d.scale = 0 then "" else "." ++ d.fractionText)

/-- The decimal with the special values told by their signs. -/
def toNumeric (d : Decimal) : Native.Numeric :=
  if d.sign = 0xC000 then .nan
  else if d.sign = 0xD000 then .infinity
  else if d.sign = 0xF000 then .negInfinity
  else .finite d.text

end Decimal

/-- The fields of a decimal. -/
def Read.decimal : Read Decimal := do
  let n ← Read.int16
  if n.toInt < 0 then failure
  let weight ← Read.int16
  let sign ← Read.unsigned 2
  let scale ← Read.unsigned 2
  let digits ← Read.times Read.int16 n.toInt.toNat
  return ⟨weight.toInt, sign, scale, digits.map Int16.toInt⟩

end SqlGate.Wire
