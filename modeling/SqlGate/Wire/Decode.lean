import SqlGate.Json.Reader
import SqlGate.Text.Utf8
import SqlGate.Wire.Numeric

/-!
# Payloads of built-in types

## Built-in types

The numbers by which the wire format names the types it can carry.
-/

namespace SqlGate.Wire

/-- The types whose payloads have a decoder. -/
inductive Kind where
  | bool | bytea | char | text | int2 | int4 | int8 | oid | json | jsonb
  | float4 | float8 | money | numeric | uuid
  | date | time | timeTz | timestamp | interval
  | inet | mac | point | line | segment | box | path | polygon | circle | bits
  /-- A range over the type with the given number. -/
  | range (subtype : Nat)
  deriving Repr, DecidableEq

/-- The type that a number names. -/
def kindOf? : Nat → Option Kind
  | 16 => some .bool
  | 17 => some .bytea
  | 18 => some .char
  | 19 | 25 | 142 | 1042 | 1043 => some .text
  | 20 => some .int8
  | 21 => some .int2
  | 23 => some .int4
  | 26 => some .oid
  | 114 => some .json
  | 600 => some .point
  | 601 => some .segment
  | 602 => some .path
  | 603 => some .box
  | 604 => some .polygon
  | 628 => some .line
  | 650 | 869 => some .inet
  | 700 => some .float4
  | 701 => some .float8
  | 718 => some .circle
  | 774 | 829 => some .mac
  | 790 => some .money
  | 1082 => some .date
  | 1083 => some .time
  | 1114 | 1184 => some .timestamp
  | 1186 => some .interval
  | 1266 => some .timeTz
  | 1560 | 1562 => some .bits
  | 1700 => some .numeric
  | 2950 => some .uuid
  | 3802 => some .jsonb
  | 3904 => some (.range 23)
  | 3906 => some (.range 1700)
  | 3908 => some (.range 1114)
  | 3910 => some (.range 1184)
  | 3912 => some (.range 1082)
  | 3926 => some (.range 20)
  | _ => none

/-- The subtype of a built-in range type. -/
def rangeSubtype? (oid : Nat) : Option Nat :=
  match kindOf? oid with
  | some (.range subtype) => some subtype
  | _ => none

end SqlGate.Wire

/-!
## Decoding payloads

`decode` reads a payload as the type a number names, `decodeRange` as a range and `decodeArray` as
an array, whose header names the type of its elements. Each fails on a payload that is not what
the type promises; `fallback` shows such a payload as text or as bytes. Elements and bounds that
fail on their own are shown by `fallback` in place. The reading of an array breaks off if it
announces more elements than there is room for (`arrayOutcome`).
-/

namespace SqlGate.Wire

open Number Calendar

/-- The texts of a payload: it has to be UTF-8. -/
def textOf? (bs : List UInt8) : Option Native := (Text.Utf8.decode? bs).map .text

/-- The JSON document of a payload. -/
def jsonOf? (bs : List UInt8) : Option Native :=
  ((Text.Utf8.decode? bs).bind Json.ofString?).map .json

/-- Text when the payload is UTF-8, otherwise its bytes. -/
def fallback (bs : List UInt8) : Native := (textOf? bs).getD (.bytes bs)

/-- Days are counted from 2000-01-01 on the wire. -/
def epochDay : Int := 10957

/-- The day of a count, if a calendar date can name it. The outermost counts are the infinities. -/
def dateOf? (days : Int) : Option Native.Date :=
  if days = 2147483647 then some .infinity
  else if days = -2147483648 then some .negInfinity
  else
    let day := epochDay + days
    if firstDay ≤ day ∧ day ≤ lastDay then some (.finite day) else none

/-- The instant of a count of microseconds from 2000-01-01, if a calendar date can name its day.
The outermost counts are the infinities. -/
def timestampOf? (micros : Int) : Option Native.Timestamp :=
  if micros = 9223372036854775807 then some .infinity
  else if micros = -9223372036854775808 then some .negInfinity
  else
    let unix := micros + 946684800000000
    if 9223372036854775807 < unix then none
    else
      let seconds := unix / 1000000
      let day := seconds / 86400
      if firstDay ≤ day ∧ day ≤ lastDay then
        some (.finite ⟨seconds, (unix % 1000000).toNat * 1000⟩)
      else none

/-- The time of day of a count of microseconds, which has to be less than a day. -/
def clockOf? (micros : Int) : Option ClockTime :=
  if 0 ≤ micros ∧ micros < 86400000000 then
    some ⟨(micros / 1000000).toNat, (micros % 1000000).toNat * 1000⟩
  else none

/-- A time of day; the end of the day is a text, because no clock shows it. -/
def timeOf? (micros : Int) : Option Native :=
  if micros = 86400000000 then some (.text "24:00:00") else (clockOf? micros).map .time

/-- A time of day with an offset, given in seconds west and shown in seconds east. -/
def timeTzOf? (micros west : Int) : Option Native :=
  if west.natAbs < 86400 then (clockOf? micros).map (.timeTz · (-west)) else none

namespace Read

/-- A double. -/
def double : Read Double := (fun n => ⟨UInt64.ofNat n⟩) <$> unsigned 8

/-- A point. -/
def point : Read Native.Point := return ⟨← double, ← double⟩

/-- Points after their count. -/
def points : Read (List Native.Point) := do times point (← count)

/-- An address after its family, prefix length, kind and size. -/
def inet : Read Native.Inet := do
  let family ← byte
  let bits ← byte
  let cidr ← byte
  let size ← byte
  if family = 2 ∧ size = 4 then
    return ⟨.v4 (← byte) (← byte) (← byte) (← byte), bits, cidr ≠ 0⟩
  else if family = 3 ∧ size = 16 then
    return ⟨.v6 (← take 16), bits, cidr ≠ 0⟩
  else failure

/-- The read of a type with a binary layout; none for those that take the payload as it is. -/
def ofKind : Kind → Option (Read Native)
  | .bool => some (return .bool ((← byte) ≠ 0))
  | .int2 => some (return .int (Int64.ofInt (← int16).toInt))
  | .int4 => some (return .int (Int64.ofInt (← int32).toInt))
  | .int8 => some (.int <$> int64)
  | .oid => some ((fun n => .int (Int64.ofNat n)) <$> unsigned 4)
  | .float4 => some ((fun n => .real ⟨UInt32.ofNat n⟩) <$> unsigned 4)
  | .float8 => some (.double <$> double)
  | .money => some (.money <$> int64)
  | .numeric => some ((fun d => .numeric d.toNumeric) <$> decimal)
  | .uuid => some (.uuid <$> take 16)
  | .date => some do
      match dateOf? (← int32).toInt with
      | some d => return .date d
      | none => failure
  | .time => some do
      match timeOf? (← int64).toInt with
      | some v => return v
      | none => failure
  | .timeTz => some do
      let micros ← int64
      match timeTzOf? micros.toInt (← int32).toInt with
      | some v => return v
      | none => failure
  | .timestamp => some do
      match timestampOf? (← int64).toInt with
      | some t => return .timestamp t
      | none => failure
  | .interval => some do
      let microseconds ← int64
      let days ← int32
      let months ← int32
      return .interval ⟨months, days, microseconds⟩
  | .inet => some (.inet <$> inet)
  | .point => some (.point <$> point)
  | .line => some (return .line (← double) (← double) (← double))
  | .segment => some (return .segment (← point) (← point))
  | .box => some (return .box (← point) (← point))
  | .path => some (return .path ((← byte) ≠ 0) (← points))
  | .polygon => some (.polygon <$> points)
  | .circle => some (return .circle (← point) (← double))
  | .bits => some do
      let n ← count
      return .bits n (← take ((n + 7) / 8))
  | .bytea | .char | .text | .json | .jsonb | .mac | .range _ => none

end Read

/-- The value of a payload of a type that is no range. -/
def decodeScalar (kind : Kind) (bs : List UInt8) : Option Native :=
  match kind with
  | .bytea => some (.bytes bs)
  | .char => some (.text (Text.Utf8.lossy bs))
  | .text => textOf? bs
  | .json => jsonOf? bs
  | .jsonb =>
    match bs with
    | 1 :: document => jsonOf? document
    | _ => none
  | .mac => some (.mac bs)
  | kind => (Read.ofKind kind).bind (·.whole bs)

/-- A bound of a range: absent when its side is open, else a value and whether it belongs. -/
def Read.bound (decode : List UInt8 → Option Native) (isOpen inclusive : Bool) :
    Read (Option (Native × Bool)) := do
  if isOpen then return none
  else
    match ← field with
    | none => failure
    | some raw => return some ((decode raw).getD (fallback raw), inclusive)

/-- A range: its flags, then the bounds they announce. -/
def Read.range (decode : List UInt8 → Option Native) : Read Native := do
  let flags := (← byte).toNat
  if flags.testBit 0 then return .emptyRange
  else
    let lower ← bound decode (flags.testBit 3) (flags.testBit 1)
    let upper ← bound decode (flags.testBit 4) (flags.testBit 2)
    return .range lower upper

/-- The value of a payload of a built-in type. The bounds of its ranges are of types that are no
ranges. -/
def decode (oid : Nat) (bs : List UInt8) : Option Native :=
  match kindOf? oid with
  | none => none
  | some (.range subtype) =>
    (Read.range fun raw => (kindOf? subtype).bind (decodeScalar · raw)).whole bs
  | some kind => decodeScalar kind bs

/-- A payload shown as its type has it, or by `fallback`. -/
def decodeOrFallback (oid : Nat) (bs : List UInt8) : Native :=
  (decode oid bs).getD (fallback bs)

/-- The range of a payload over a subtype, built in or not. -/
def decodeRange (subtype : Nat) (bs : List UInt8) : Option Native :=
  (Read.range (decode subtype)).whole bs

/-- The product of the lengths of the dimensions, if 64 bits hold every step of it. -/
def elementCount : Nat → List Nat → Option Nat
  | n, [] => some n
  | n, d :: ds => if n * d < Nat.pow 2 64 then elementCount (n * d) ds else none

mutual

/-- Elements put into nested arrays, the last dimension innermost; the rest is returned. -/
def nest (xs : List Native) : List Nat → Option (Native × List Native)
  | [] => none
  | [d] => if d ≤ xs.length then some (.array (xs.take d), xs.drop d) else none
  | d :: ds => (nestMany xs ds d).map fun (items, rest) => (.array items, rest)

/-- `n` nested arrays in a row. -/
def nestMany (xs : List Native) (ds : List Nat) : Nat → Option (List Native × List Native)
  | 0 => some ([], xs)
  | n + 1 => do
    let (x, rest) ← nest xs ds
    let (items, rest) ← nestMany rest ds n
    return (x :: items, rest)

end

/-- An element of an array. -/
def Read.element (oid : Nat) : Read Native := do
  match ← field with
  | none => return .null
  | some raw => return decodeOrFallback oid raw

/-- What an array announces: the number of the type of its elements, and the lengths of its
dimensions. -/
def Read.arrayHeader : Read (Nat × List Nat) := do
  let dimensions ← count
  let _hasNulls ← int32
  let oid ← unsigned 4
  let lengths ← times (do let n ← count; let _lowerBound ← int32; return n) dimensions
  return (oid, lengths)

/-- The elements of an array, put into its dimensions. -/
def Read.elements (oid total : Nat) (lengths : List Nat) : Read Native := do
  let xs ← times (element oid) total
  match nest xs lengths with
  | some (v, _) => return v
  | none => failure

/-- How the reading of a payload comes out: it gives a value, or none because the payload is not
what its type promises, or it breaks off. -/
inductive Outcome where
  | value (v : Native)
  | refused
  | brokenOff

namespace Outcome

/-- The outcome of a reading that comes to its end. -/
def ofOption : Option Native → Outcome
  | some v => value v
  | none => refused

/-- The value that was read. -/
def value? : Outcome → Option Native
  | value v => some v
  | _ => none

end Outcome

/-- How many values there is room for: memory has the addresses below `2 ^ 63`, and a value takes
forty of them. -/
def room : Nat := (Nat.pow 2 63 - 1) / 40

/-- How the reading of an array comes out. The room for all elements that are announced is reserved
before the first one is read; there the reading breaks off if there is not so much. -/
def arrayOutcome (bs : List UInt8) : Outcome :=
  match Read.arrayHeader bs with
  | none => .refused
  | some ((_, []), rest) => .ofOption (Read.whole (return .array []) rest)
  | some ((oid, lengths), rest) =>
    match elementCount 1 lengths with
    | none => .refused
    | some total =>
      if room < total then .brokenOff else .ofOption ((Read.elements oid total lengths).whole rest)

/-- The array of a payload. -/
def decodeArray (bs : List UInt8) : Option Native := (arrayOutcome bs).value?

end SqlGate.Wire
