/-!
# Bytes as letters

## Hexadecimal text

Two lower-case digits a byte; reading accepts both letter cases.
-/

namespace SqlGate.Text.Hex

/-- The lower-case digit of a number below sixteen. -/
def digit (n : Nat) : Char :=
  if n < 10 then Char.ofNat (48 + n) else Char.ofNat (87 + n)

/-- The value of a hexadecimal digit. -/
def digit? (c : Char) : Option Nat :=
  if '0' ≤ c ∧ c ≤ '9' then some (c.toNat - 48)
  else if 'a' ≤ c ∧ c ≤ 'f' then some (c.toNat - 87)
  else if 'A' ≤ c ∧ c ≤ 'F' then some (c.toNat - 55)
  else none

/-- The two digits of a byte. -/
def byte (b : UInt8) : List Char := [digit (b.toNat / 16), digit (b.toNat % 16)]

/-- The digits of a byte string. -/
def encode (bytes : List UInt8) : String := String.ofList (bytes.flatMap byte)

/-- The bytes written by an even number of digits. -/
def decodeChars? : List Char → Option (List UInt8)
  | [] => some []
  | hi :: lo :: r => do
    let h ← digit? hi
    let l ← digit? lo
    let bytes ← decodeChars? r
    return UInt8.ofNat (h * 16 + l) :: bytes
  | [_] => none

/-- The bytes a text writes. -/
def decode? (s : String) : Option (List UInt8) := decodeChars? s.toList

/-- The digits of a number, most significant first, without leading zeros. -/
def ofNat (n : Nat) : String :=
  String.ofList ((Nat.toDigits 16 n))

end SqlGate.Text.Hex

/-!
## Base64

The standard alphabet with padding: three bytes give four characters.
-/

namespace SqlGate.Text.Base64

/-- The character of a six-bit value. -/
def digit (n : Nat) : Char :=
  if n < 26 then Char.ofNat (65 + n)
  else if n < 52 then Char.ofNat (71 + n)
  else if n < 62 then Char.ofNat (n - 4)
  else if n = 62 then '+'
  else '/'

/-- The characters of a byte string. -/
def encodeChars : List UInt8 → List Char
  | [] => []
  | [a] =>
    let n := a.toNat * 65536
    [digit (n / 262144), digit (n / 4096 % 64), '=', '=']
  | [a, b] =>
    let n := a.toNat * 65536 + b.toNat * 256
    [digit (n / 262144), digit (n / 4096 % 64), digit (n / 64 % 64), '=']
  | a :: b :: c :: r =>
    let n := a.toNat * 65536 + b.toNat * 256 + c.toNat
    digit (n / 262144) :: digit (n / 4096 % 64) :: digit (n / 64 % 64) :: digit (n % 64)
      :: encodeChars r

/-- The text of a byte string. -/
def encode (bytes : List UInt8) : String := String.ofList (encodeChars bytes)

end SqlGate.Text.Base64
