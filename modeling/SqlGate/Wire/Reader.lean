/-!
# Reading binary payloads

A payload is a byte string of big-endian fields. A read takes the fields it wants off the front and
fails when they are not all there; `whole` accepts a read that leaves nothing behind.
-/

namespace SqlGate.Wire

/-- A read of a payload: what it found, and the bytes after it. -/
abbrev Read (α : Type) := StateT (List UInt8) Option α

namespace Read

/-- The next `n` bytes. -/
def take (n : Nat) : Read (List UInt8) := fun bs =>
  if n ≤ bs.length then some (bs.take n, bs.drop n) else none

/-- The natural number of a big-endian byte string. -/
def bigEndian (bs : List UInt8) : Nat := bs.foldl (fun n b => n * 256 + b.toNat) 0

/-- An unsigned number of `n` bytes. -/
def unsigned (n : Nat) : Read Nat := bigEndian <$> take n

/-- A byte. -/
def byte : Read UInt8 := UInt8.ofNat <$> unsigned 1

/-- A signed number of two bytes. -/
def int16 : Read Int16 := (fun n => (UInt16.ofNat n).toInt16) <$> unsigned 2

/-- A signed number of four bytes. -/
def int32 : Read Int32 := (fun n => (UInt32.ofNat n).toInt32) <$> unsigned 4

/-- A signed number of eight bytes. -/
def int64 : Read Int64 := (fun n => (UInt64.ofNat n).toInt64) <$> unsigned 8

/-- A count: a signed number of four bytes that is not negative. -/
def count : Read Nat := do
  let n ← int32
  if 0 ≤ n.toInt then return n.toInt.toNat else failure

/-- A field after its length; a length of -1 stands for an absent one. -/
def field : Read (Option (List UInt8)) := do
  let n ← int32
  if n.toInt = -1 then return none
  else if n.toInt < 0 then failure
  else some <$> take n.toInt.toNat

/-- `n` reads of one kind. -/
def times (read : Read α) : Nat → Read (List α)
  | 0 => return []
  | n + 1 => do
    let x ← read
    let xs ← times read n
    return x :: xs

/-- A read that takes the whole payload. -/
def whole (read : Read α) (bs : List UInt8) : Option α :=
  match read bs with
  | some (v, []) => some v
  | _ => none

end Read

end SqlGate.Wire
