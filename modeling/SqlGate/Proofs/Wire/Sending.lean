import SqlGate.Native.Render
import SqlGate.Proofs.Text.Bytes
import SqlGate.Proofs.Wire.Layout
import SqlGate.Proofs.Wire.Numeral
import SqlGate.Wire.Decode

/-!
# What is sent

The values that each kind of column holds, and the payload in which each of them is sent: big-endian
fields in the order of the wire format.
-/

namespace SqlGate

open Number Calendar

namespace Wire

/-! ## Bit strings -/

/-- A byte of eight bits, the most significant first; missing ones are zeros. -/
def octet (bits : List Bool) : UInt8 :=
  UInt8.ofNat ((List.range 8).foldl (fun n k => 2 * n + (bits.getD k false).toNat) 0)

/-- Bits in bytes; the last byte is filled up with zeros. -/
def pack (bits : List Bool) : List UInt8 :=
  match bits with
  | [] => []
  | b :: r => octet ((b :: r).take 8) :: pack ((b :: r).drop 8)
  termination_by bits.length
  decreasing_by
    simp only [List.length_drop, List.length_cons]
    omega

/-- A bit as a digit. -/
def bitDigit (b : Bool) : Char := if b then '1' else '0'

end Wire

/-- A bit string. -/
def Native.ofBits (bits : List Bool) : Native := .bits bits.length (Wire.pack bits)

namespace Wire

/-! ## Values -/

/-- A time of day that is a whole number of microseconds. -/
def IsTimeOfDay (t : ClockTime) : Prop :=
  t.seconds < 86400 ∧ t.nanos < 1000000000 ∧ t.nanos % 1000 = 0

/-- A date between the first and the last one, or infinite. -/
def IsDate : Native.Date → Prop
  | .finite day => firstDay ≤ day ∧ day ≤ lastDay
  | _ => True

/-- A point in time on such a date that is a whole number of microseconds, or an infinite one. -/
def IsTimestamp : Native.Timestamp → Prop
  | .finite m => firstDay ≤ m.day ∧ m.day ≤ lastDay ∧ m.nanos < 1000000000 ∧ m.nanos % 1000 = 0
  | _ => True

/-- An address of four or of sixteen bytes. -/
def IsAddress : Native.Address → Prop
  | .v4 .. => True
  | .v6 bs => bs.length = 16

/-- A decimal within the limits of the database, whose groups can be counted in its header. -/
def IsNumeric : Native.Numeric → Prop
  | .finite s => ∃ n : Numeral, n.Canonical ∧ n.whole.length ≤ 131072 ∧ n.part.length ≤ 16383 ∧
      n.sent.length < 32768 ∧ s = n.text
  | _ => True

/-- The values of a kind that is no range. Documents are left out. -/
inductive Kind.Holds : Kind → Native → Prop
  | bool (b : Bool) : Holds .bool (.bool b)
  | bytea (bs : List UInt8) : Holds .bytea (.bytes bs)
  | char (s : String) : Holds .char (.text s)
  | text (s : String) : Holds .text (.text s)
  | int2 {i : Int64} (hlow : -32768 ≤ i.toInt) (hhigh : i.toInt ≤ 32767) : Holds .int2 (.int i)
  | int4 {i : Int64} (hlow : -2147483648 ≤ i.toInt) (hhigh : i.toInt ≤ 2147483647) :
      Holds .int4 (.int i)
  | int8 (i : Int64) : Holds .int8 (.int i)
  | oid {i : Int64} (hlow : 0 ≤ i.toInt) (hhigh : i.toInt < 4294967296) : Holds .oid (.int i)
  | float4 (x : Single) : Holds .float4 (.real x)
  | float8 (x : Double) : Holds .float8 (.double x)
  | money (cents : Int64) : Holds .money (.money cents)
  | numeric {n : Native.Numeric} (h : IsNumeric n) : Holds .numeric (.numeric n)
  | uuid {bs : List UInt8} (h : bs.length = 16) : Holds .uuid (.uuid bs)
  | date {d : Native.Date} (h : IsDate d) : Holds .date (.date d)
  | time {t : ClockTime} (h : IsTimeOfDay t) : Holds .time (.time t)
  | timeTz {t : ClockTime} {east : Int} (h : IsTimeOfDay t) (heast : east.natAbs < 86400) :
      Holds .timeTz (.timeTz t east)
  | timestamp {t : Native.Timestamp} (h : IsTimestamp t) : Holds .timestamp (.timestamp t)
  | interval (i : Native.Interval) : Holds .interval (.interval i)
  | inet {i : Native.Inet} (h : IsAddress i.address) : Holds .inet (.inet i)
  | mac (bs : List UInt8) : Holds .mac (.mac bs)
  | point (p : Native.Point) : Holds .point (.point p)
  | line (a b c : Double) : Holds .line (.line a b c)
  | segment (p q : Native.Point) : Holds .segment (.segment p q)
  | box (p q : Native.Point) : Holds .box (.box p q)
  | path (closed : Bool) {ps : List Native.Point} (h : ps.length < 2147483648) :
      Holds .path (.path closed ps)
  | polygon {ps : List Native.Point} (h : ps.length < 2147483648) : Holds .polygon (.polygon ps)
  | circle (center : Native.Point) (radius : Double) : Holds .circle (.circle center radius)
  | bits {bits : List Bool} (h : bits.length < 2147483648) : Holds .bits (.ofBits bits)

/-- The values of a kind: a range is empty, or on each side has a bound that may belong to it, or
is open. -/
inductive Kind.Carries : Kind → Native → Prop
  | scalar {kind : Kind} {v : Native} (h : kind.Holds v) : Carries kind v
  | emptyRange (subtype : Nat) : Carries (.range subtype) .emptyRange
  | range {subtype : Nat} {kind : Kind} {lower upper : Option (Native × Bool)}
      (hkind : kindOf? subtype = some kind) (hlower : ∀ x ∈ lower, kind.Holds x.1)
      (hupper : ∀ x ∈ upper, kind.Holds x.1) : Carries (.range subtype) (.range lower upper)

/-! ## Payloads -/

/-- A truth value in a byte. -/
def flag (b : Bool) : UInt8 := if b then 1 else 0

def sendDouble (x : Double) : List UInt8 := big 8 x.bits.toNat

def sendPoint (p : Native.Point) : List UInt8 := sendDouble p.x ++ sendDouble p.y

/-- Points after their count. -/
def sendPoints (ps : List Native.Point) : List UInt8 := signed 4 ps.length ++ ps.flatMap sendPoint

/-- The microseconds since midnight. -/
def microsOfClock (t : ClockTime) : Int := t.seconds * 1000000 + t.nanos / 1000

/-- The days since 2000-01-01. -/
def countOfDate : Native.Date → Int
  | .finite day => day - epochDay
  | .infinity => 2147483647
  | .negInfinity => -2147483648

/-- The microseconds since 2000-01-01. -/
def countOfTimestamp : Native.Timestamp → Int
  | .finite m => m.seconds * 1000000 + m.nanos / 1000 - 946684800000000
  | .infinity => 9223372036854775807
  | .negInfinity => -9223372036854775808

/-- Family, prefix length, kind and size of an address, and the address. -/
def sendInet (i : Native.Inet) : List UInt8 :=
  match i.address with
  | .v4 a b c d => [2, i.bits, flag i.cidr, 4, a, b, c, d]
  | .v6 bs => [3, i.bits, flag i.cidr, 16] ++ bs

/-- The decimal that a text shows. -/
def Numeral.ofText (s : String) : Numeral :=
  let body := s.toList.dropWhile (· = '-')
  ⟨s.toList.head? = some '-', body.takeWhile Char.isDigit, (body.dropWhile Char.isDigit).drop 1⟩

/-- The header of a decimal and its groups. -/
def sendDecimal (d : Decimal) : List UInt8 :=
  signed 2 d.digits.length ++ signed 2 d.weight ++ big 2 d.sign ++ big 2 d.scale ++
    d.digits.flatMap (signed 2)

def sendNumeric : Native.Numeric → List UInt8
  | .finite s => sendDecimal (Numeral.ofText s).decimal
  | .nan => sendDecimal ⟨0, 0xC000, 0, []⟩
  | .infinity => sendDecimal ⟨0, 0xD000, 0, []⟩
  | .negInfinity => sendDecimal ⟨0, 0xF000, 0, []⟩

/-- The payload of a value of a kind that is no range. -/
def sendScalar : Kind → Native → List UInt8
  | .bool, .bool b => [flag b]
  | .bytea, .bytes bs => bs
  | .char, .text s => Text.Utf8.encode s
  | .text, .text s => Text.Utf8.encode s
  | .int2, .int i => signed 2 i.toInt
  | .int4, .int i => signed 4 i.toInt
  | .int8, .int i => signed 8 i.toInt
  | .oid, .int i => big 4 i.toInt.toNat
  | .float4, .real x => big 4 x.bits.toNat
  | .float8, .double x => sendDouble x
  | .money, .money cents => signed 8 cents.toInt
  | .numeric, .numeric n => sendNumeric n
  | .uuid, .uuid bs => bs
  | .date, .date d => signed 4 (countOfDate d)
  | .time, .time t => signed 8 (microsOfClock t)
  -- The offset is sent in seconds west.
  | .timeTz, .timeTz t east => signed 8 (microsOfClock t) ++ signed 4 (-east)
  | .timestamp, .timestamp t => signed 8 (countOfTimestamp t)
  | .interval, .interval i =>
    signed 8 i.microseconds.toInt ++ (signed 4 i.days.toInt ++ signed 4 i.months.toInt)
  | .inet, .inet i => sendInet i
  | .mac, .mac bs => bs
  | .point, .point p => sendPoint p
  | .line, .line a b c => sendDouble a ++ (sendDouble b ++ sendDouble c)
  | .segment, .segment p q => sendPoint p ++ sendPoint q
  | .box, .box p q => sendPoint p ++ sendPoint q
  | .path, .path closed ps => flag closed :: sendPoints ps
  | .polygon, .polygon ps => sendPoints ps
  | .circle, .circle center radius => sendPoint center ++ sendDouble radius
  | .bits, .bits n bs => signed 4 n ++ bs
  | _, _ => []

/-- A bound after its length. -/
def sendBound (kind : Kind) : Option (Native × Bool) → List UInt8
  | none => []
  | some (v, _) => signed 4 (sendScalar kind v).length ++ sendScalar kind v

/-- On which sides a range has a bound, and whether the bound belongs to it. -/
def rangeFlags (lower upper : Option Bool) : UInt8 :=
  (match lower with
    | some inclusive => if inclusive then 0x02 else 0
    | none => 0x08) +
  match upper with
    | some inclusive => if inclusive then 0x04 else 0
    | none => 0x10

/-- The payload of a value. -/
def send : Kind → Native → List UInt8
  | .range _, .emptyRange => [0x01]
  | .range subtype, .range lower upper =>
    match kindOf? subtype with
    | some kind => rangeFlags (lower.map Prod.snd) (upper.map Prod.snd) ::
      (sendBound kind lower ++ sendBound kind upper)
    | none => []
  | kind, v => sendScalar kind v

end Wire

end SqlGate
