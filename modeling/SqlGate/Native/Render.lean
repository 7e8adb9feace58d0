import SqlGate.Json.Reader
import SqlGate.Native.Value
import SqlGate.Text.Bytes
import SqlGate.Text.Utf8

/-!
# What database values look like

## Texts of network addresses

Four bytes in decimal, or eight groups in hexadecimal with the longest run of zero groups, the
first of equals, shortened to `::`. An address that maps a four-byte one shows that in decimal.
-/

namespace SqlGate.Native

/-- The two-byte groups of an address. -/
def groups : List UInt8 → List Nat
  | a :: b :: r => (a.toNat * 256 + b.toNat) :: groups r
  | _ => []

/-- The lengths of the runs of zeros that start at each position. -/
def zeroRuns : List Nat → List Nat
  | [] => []
  | g :: gs =>
    let rest := zeroRuns gs
    (if g = 0 then rest.headD 0 + 1 else 0) :: rest

/-- The start and length of the longest of some runs, the first of equals. -/
def longestRun (runs : List Nat) : Nat × Nat :=
  runs.zipIdx.foldl (fun best (n, i) => if best.2 < n then (i, n) else best) (0, 0)

/-- Groups with colons between them. -/
def joinGroups (gs : List Nat) : String := ":".intercalate (gs.map Text.Hex.ofNat)

/-- Four bytes in decimal. -/
def dotted (bs : List Nat) : String := ".".intercalate (bs.map fun (b : Nat) => Text.decimal b)

/-- The text of eight groups. -/
def groupsText (gs : List Nat) : String :=
  match gs with
  | [0, 0, 0, 0, 0, 0xffff, g, h] => "::ffff:" ++ dotted [g / 256, g % 256, h / 256, h % 256]
  | _ =>
    let (start, n) := longestRun (zeroRuns gs)
    if 1 < n then joinGroups (gs.take start) ++ "::" ++ joinGroups (gs.drop (start + n))
    else joinGroups gs

/-- The text of an address. -/
def Address.text : Address → String
  | .v4 a b c d => dotted [a.toNat, b.toNat, c.toNat, d.toNat]
  | .v6 bs => groupsText (groups bs)

/-- The prefix length of a single host. -/
def Address.full : Address → Nat
  | .v4 .. => 32
  | .v6 _ => 128

/-- An address with its prefix length, which a single host that is no network goes without. -/
def Inet.text (i : Inet) : String :=
  if ¬ i.cidr ∧ i.bits.toNat = i.address.full then i.address.text
  else i.address.text ++ "/" ++ Text.decimal i.bits.toNat

end SqlGate.Native

/-!
## JSON forms of database values

Integers stay integers of full width. What JSON has no number for, and every structured type,
becomes a text; arrays keep their shape, and null stands for null only.
-/

namespace SqlGate.Native

open Number Calendar

/-- A double: a number, or a text when it is not finite. What is neither would be null. -/
def ofDouble (x : Double) : Json :=
  match x.value with
  | .nan => .str "NaN"
  | .infinity negative => .str (nonFinite negative)
  | .finite _ _ _ => (Json.Num.ofDouble? x).elim .null .num

/-- No double is null. -/
theorem ofDouble_of_finite {x : Double} {negative : Bool} {m : Nat} {e : Int}
    (h : x.value = .finite negative m e) : ofDouble x = .num (.real x) := by
  simp [ofDouble, Json.Num.ofDouble?, h]

/-- The text of a decimal. -/
def Numeric.render : Numeric → String
  | .finite digits => digits
  | .nan => "NaN"
  | .infinity => "Infinity"
  | .negInfinity => "-Infinity"

/-- An amount with two places. -/
def moneyText (cents : Int64) : String :=
  let n := cents.toInt.natAbs
  signed (cents < 0) (Text.decimal (n / 100 : Nat) ++ "." ++ Text.padNat 2 (n % 100))

/-- Bytes that are a JSON document are that document; others are Base64 text. -/
def ofBytes (bs : List UInt8) : Json :=
  ((Text.Utf8.decode? bs).bind Json.ofString?).getD (.str (Text.Base64.encode bs))

/-- The text of a timestamp. -/
def Timestamp.render : Timestamp → String
  | .finite i => i.text
  | .infinity => "infinity"
  | .negInfinity => "-infinity"

/-- The text of a date: the start of its day. -/
def Date.render : Date → String
  | .finite day => midnightText day
  | .infinity => "infinity"
  | .negInfinity => "-infinity"

/-- A time of day, followed by its microseconds unless there are none. -/
def timeText (t : ClockTime) : String :=
  let micros := t.nanos / 1000
  if micros = 0 then t.text else t.text ++ "." ++ Text.padNat 6 micros

/-- An offset from Coordinated Universal Time: hours and minutes, and seconds unless there are
none. -/
def offsetText (east : Int) : String :=
  let sign := if east < 0 then "-" else "+"
  let n := east.natAbs
  let base := sign ++ Text.padNat 2 (n / 3600) ++ ":" ++ Text.padNat 2 (n / 60 % 60)
  if n % 60 = 0 then base else base ++ ":" ++ Text.padNat 2 (n % 60)

/-- A count with its unit, in the plural unless the count is one. -/
def countText (n : Int) (unit : String) : String :=
  Text.decimal n ++ " " ++ unit ++ (if n.natAbs = 1 then "" else "s")

/-- The digits of a fraction without trailing zeros. -/
def fractionDigits (micros : Nat) : String :=
  String.ofList (((Text.padNat 6 micros).toList.reverse.dropWhile (· = '0')).reverse)

/-- A signed number of microseconds as hours, minutes, seconds and a fraction. -/
def clockText (microseconds : Int) : String :=
  let n := microseconds.natAbs
  let base := Text.padNat 2 (n / 3600000000) ++ ":" ++ Text.padNat 2 (n / 60000000 % 60) ++ ":" ++
    Text.padNat 2 (n / 1000000 % 60)
  signed (microseconds < 0)
    (if n % 1000000 = 0 then base else base ++ "." ++ fractionDigits (n % 1000000))

/-- The parts of an interval that are not zero, largest unit first. -/
def Interval.parts (i : Interval) : List String :=
  let years := Int.tdiv i.months.toInt 12
  let months := Int.tmod i.months.toInt 12
  (if years = 0 then [] else [countText years "year"]) ++
    (if months = 0 then [] else [countText months "mon"]) ++
    (if i.days.toInt = 0 then [] else [countText i.days.toInt "day"]) ++
    (if i.microseconds.toInt = 0 then [] else [clockText i.microseconds.toInt])

/-- The text of an interval. -/
def Interval.render (i : Interval) : String :=
  if i.parts.isEmpty then "0" else " ".intercalate i.parts

/-- The text of a point. -/
def Point.text (p : Point) : String := "(" ++ p.x.plain ++ "," ++ p.y.plain ++ ")"

/-- Points with commas between them. -/
def pointsText (ps : List Point) : String := ",".intercalate (ps.map Point.text)

/-- The bits of a byte as digits, the most significant first. -/
def byteDigits (b : UInt8) : List Char :=
  (List.range 8).map fun k => if b.toNat.testBit (7 - k) then '1' else '0'

/-- The first `length` bits of a byte string as digits; bits beyond its end are zeros. -/
def bitsText (length : Nat) (bs : List UInt8) : String :=
  let ds := bs.flatMap byteDigits
  String.ofList (ds.take length ++ List.replicate (length - ds.length) '0')

/-- A universally unique identifier in its five groups. -/
def uuidText (bs : List UInt8) : String :=
  let part (from_ n : Nat) := Text.Hex.encode ((bs.drop from_).take n)
  "-".intercalate [part 0 4, part 4 2, part 6 2, part 8 2, part 10 6]

/-- A value inside a range: a text without its quotes, anything else as JSON. -/
def boundText : Json → String
  | .str s => s
  | v => v.text

/-- A range between the texts of its bounds. -/
def rangeText (lower upper : Option (String × Bool)) : String :=
  let (opening, low) := match lower with
    | some (s, inclusive) => (if inclusive then "[" else "(", s)
    | none => ("(", "")
  let (closing, high) := match upper with
    | some (s, inclusive) => (if inclusive then "]" else ")", s)
    | none => (")", "")
  opening ++ low ++ "," ++ high ++ closing

mutual

/-- The JSON form of a value. -/
def render : Native → Json
  | .null => .null
  | .bool b => .bool b
  | .int i => .int i.toInt
  | .real x => ofDouble x.widen
  | .double x => ofDouble x
  | .numeric n => .str n.render
  | .money cents => .str (moneyText cents)
  | .text s => .str s
  | .uuid bs => .str (uuidText bs)
  | .json v => v
  | .bytes bs => ofBytes bs
  | .timestamp t => .str t.render
  | .date d => .str d.render
  | .time t => .str (timeText t)
  | .timeTz t east => .str (timeText t ++ offsetText east)
  | .interval i => .str i.render
  | .inet i => .str i.text
  | .mac bs => .str (":".intercalate (bs.map fun b => String.ofList (Text.Hex.byte b)))
  | .point p => .str p.text
  | .line a b c => .str ("\x7b" ++ ",".intercalate [a.plain, b.plain, c.plain] ++ "\x7d")
  | .segment p q => .str ("[" ++ p.text ++ "," ++ q.text ++ "]")
  | .box p q => .str (p.text ++ "," ++ q.text)
  | .path true ps => .str ("(" ++ pointsText ps ++ ")")
  | .path false ps => .str ("[" ++ pointsText ps ++ "]")
  | .polygon ps => .str ("(" ++ pointsText ps ++ ")")
  | .circle c r => .str ("<" ++ c.text ++ "," ++ r.plain ++ ">")
  | .bits n bs => .str (bitsText n bs)
  | .emptyRange => .str "empty"
  | .range lower upper => .str (rangeText (renderBound lower) (renderBound upper))
  | .array xs => .arr (renderAll xs)

/-- The text of a bound. -/
def renderBound : Option (Native × Bool) → Option (String × Bool)
  | none => none
  | some (v, inclusive) => some (boundText (render v), inclusive)

/-- The JSON forms of the items of an array. -/
def renderAll : List Native → List Json
  | [] => []
  | x :: xs => render x :: renderAll xs

end

end SqlGate.Native
