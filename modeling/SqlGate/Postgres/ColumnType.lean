import SqlGate.Wire.Decode

/-!
# Types of columns

The server says of each type what it is made from. A domain is read as the type that it restricts, a
range by the type of its bounds, an array by what its payload says of its elements; all other types
are known by their numbers alone.
-/

namespace SqlGate.Postgres

/-- A type of columns, with its number. -/
inductive ColumnType where
  | scalar (oid : Nat)
  | domain (oid : Nat) (base : ColumnType)
  | array (oid : Nat)
  | range (oid : Nat) (subtype : ColumnType)
  deriving Repr, DecidableEq

namespace ColumnType

/-- The number of a type. -/
def oid : ColumnType → Nat
  | scalar oid => oid
  | domain oid _ => oid
  | array oid => oid
  | range oid _ => oid

/-- How the reading of a payload comes out. -/
def outcome : ColumnType → List UInt8 → Wire.Outcome
  | scalar oid, bs => .ofOption (Wire.decode oid bs)
  | domain _ base, bs => base.outcome bs
  | array _, bs => Wire.arrayOutcome bs
  | range _ subtype, bs => .ofOption (Wire.decodeRange subtype.oid bs)

/-- The value of a payload, unless the reading of it breaks off. -/
def decode? (t : ColumnType) (bs : List UInt8) : Option Native :=
  match t.outcome bs with
  | .value v => some v
  | .refused => some (Wire.fallback bs)
  | .brokenOff => none

/-- The value of a cell, which may be empty. A server announces no array that there is no room for,
because it would have to hold the array itself. -/
def decodeCell (t : ColumnType) : Option (List UInt8) → Native
  | none => .null
  | some bs => (t.decode? bs).getD (Wire.fallback bs)

end ColumnType

end SqlGate.Postgres
