import SqlGate.Calendar
import SqlGate.Json.Value

/-!
# Database values

A value of a column as its type has it: every scalar, geometric, range and array type keeps its
own shape here, and `Native.Render` gives its JSON form.
-/

namespace SqlGate

open Number Calendar

/-- A decimal of any precision, finite ones by their exact text. -/
inductive Native.Numeric where
  | finite (text : String)
  | nan
  | infinity
  | negInfinity
  deriving Repr, DecidableEq

/-- A point in time, or before or after all of them. -/
inductive Native.Timestamp where
  | finite (at_ : Moment)
  | infinity
  | negInfinity
  deriving Repr, DecidableEq

/-- A day, or before or after all of them. -/
inductive Native.Date where
  | finite (day : Int)
  | infinity
  | negInfinity
  deriving Repr, DecidableEq

/-- A span of time in three units that do not convert into each other. -/
structure Native.Interval where
  months : Int32
  days : Int32
  microseconds : Int64
  deriving Repr, DecidableEq

/-- A network address: four or sixteen bytes. -/
inductive Native.Address where
  | v4 (a b c d : UInt8)
  | v6 (bytes : List UInt8)
  deriving Repr, DecidableEq

/-- An address with a prefix length, a network when `cidr`. -/
structure Native.Inet where
  address : Native.Address
  bits : UInt8
  cidr : Bool
  deriving Repr, DecidableEq

/-- A point of the plane. -/
structure Native.Point where
  x : Double
  y : Double
  deriving Repr, DecidableEq

/-- A value of a database column. -/
inductive Native where
  | null
  | bool (b : Bool)
  | int (i : Int64)
  | real (x : Single)
  | double (x : Double)
  | numeric (n : Native.Numeric)
  /-- An amount in hundredths. -/
  | money (cents : Int64)
  | text (s : String)
  /-- Sixteen bytes. -/
  | uuid (bytes : List UInt8)
  | json (v : Json)
  | bytes (bs : List UInt8)
  | timestamp (t : Native.Timestamp)
  | date (d : Native.Date)
  | time (t : ClockTime)
  /-- A time of day with its offset in seconds east. -/
  | timeTz (t : ClockTime) (east : Int)
  | interval (i : Native.Interval)
  | inet (i : Native.Inet)
  | mac (bytes : List UInt8)
  | point (p : Native.Point)
  | line (a b c : Double)
  | segment (p q : Native.Point)
  | box (p q : Native.Point)
  | path (closed : Bool) (points : List Native.Point)
  | polygon (points : List Native.Point)
  | circle (center : Native.Point) (radius : Double)
  /-- `length` bits, the most significant of each byte first. -/
  | bits (length : Nat) (bytes : List UInt8)
  | emptyRange
  /-- A range between two bounds, each a value and whether it belongs to the range; a missing one
  leaves the range open on that side. -/
  | range (lower upper : Option (Native × Bool))
  | array (items : List Native)
  deriving Repr

instance : Inhabited Native := ⟨.null⟩

end SqlGate
