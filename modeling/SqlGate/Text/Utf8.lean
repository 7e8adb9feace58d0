/-!
# UTF-8

A byte string is cut into pieces: characters, malformed sequences and a sequence the input ends
in the middle of. A malformed piece is the longest start of a character that the byte after it
rules out, so every reader of the pieces agrees on how many faults there are and where.
`decode` accepts a byte string when all pieces are characters; `lossy` writes U+FFFD for each
faulty piece. `beginning?` cuts a text so that a number of bytes holds it, but no character in two.
-/

namespace SqlGate.Text.Utf8

/-- A stretch of a byte string. -/
inductive Piece where
  | char (c : Char)
  /-- `length` bytes that no character starts with. -/
  | malformed (length : Nat)
  /-- The input ends inside a character. -/
  | truncated (length : Nat)
  deriving Repr, DecidableEq

/-- The continuation bytes. -/
def isTail (b : UInt8) : Bool := 0x80 ≤ b && b ≤ 0xBF

/-- The second bytes that may follow the first byte of a three-byte character. -/
def isSecondOfThree (b0 b1 : UInt8) : Bool :=
  if b0 == 0xE0 then 0xA0 ≤ b1 && b1 ≤ 0xBF
  else if b0 == 0xED then 0x80 ≤ b1 && b1 ≤ 0x9F
  else isTail b1

/-- The second bytes that may follow the first byte of a four-byte character. -/
def isSecondOfFour (b0 b1 : UInt8) : Bool :=
  if b0 == 0xF0 then 0x90 ≤ b1 && b1 ≤ 0xBF
  else if b0 == 0xF4 then 0x80 ≤ b1 && b1 ≤ 0x8F
  else isTail b1

/-- The low six bits, which a continuation byte carries. -/
def tailBits (b : UInt8) : Nat := b.toNat % 64

/-- The pieces of a byte string, in order. -/
def pieces : List UInt8 → List Piece
  | [] => []
  | b0 :: r0 =>
    if b0 < 0x80 then .char (Char.ofNat b0.toNat) :: pieces r0
    else if 0xC2 ≤ b0 && b0 ≤ 0xDF then
      match r0 with
      | [] => [.truncated 1]
      | b1 :: r1 =>
        if isTail b1 then .char (Char.ofNat (b0.toNat % 32 * 64 + tailBits b1)) :: pieces r1
        else .malformed 1 :: pieces (b1 :: r1)
    else if 0xE0 ≤ b0 && b0 ≤ 0xEF then
      match r0 with
      | [] => [.truncated 1]
      | b1 :: r1 =>
        if isSecondOfThree b0 b1 then
          match r1 with
          | [] => [.truncated 2]
          | b2 :: r2 =>
            if isTail b2 then
              .char (Char.ofNat (b0.toNat % 16 * 4096 + tailBits b1 * 64 + tailBits b2))
                :: pieces r2
            else .malformed 2 :: pieces (b2 :: r2)
        else .malformed 1 :: pieces (b1 :: r1)
    else if 0xF0 ≤ b0 && b0 ≤ 0xF4 then
      match r0 with
      | [] => [.truncated 1]
      | b1 :: r1 =>
        if isSecondOfFour b0 b1 then
          match r1 with
          | [] => [.truncated 2]
          | b2 :: r2 =>
            if isTail b2 then
              match r2 with
              | [] => [.truncated 3]
              | b3 :: r3 =>
                if isTail b3 then
                  .char (Char.ofNat (b0.toNat % 8 * 262144 + tailBits b1 * 4096
                    + tailBits b2 * 64 + tailBits b3)) :: pieces r3
                else .malformed 3 :: pieces (b3 :: r3)
            else .malformed 2 :: pieces (b2 :: r2)
        else .malformed 1 :: pieces (b1 :: r1)
    else .malformed 1 :: pieces r0

/-- Where and how a byte string stops being UTF-8: the index of the fault and, unless the input
ends inside a character, the length of the malformed sequence. -/
structure Fault where
  index : Nat
  length? : Option Nat
  deriving Repr, DecidableEq

/-- The text of a fault. -/
def Fault.message (f : Fault) : String :=
  match f.length? with
  | some n => s!"invalid utf-8 sequence of {n} bytes from index {f.index}"
  | none => s!"incomplete utf-8 byte sequence from index {f.index}"

/-- The characters of a list of pieces, or the first fault; `index` counts the bytes before. -/
def ofPieces (index : Nat) : List Piece → Except Fault (List Char)
  | [] => .ok []
  | .char c :: r => (c :: ·) <$> ofPieces (index + c.utf8Size) r
  | .malformed n :: _ => .error ⟨index, some n⟩
  | .truncated _ :: _ => .error ⟨index, none⟩

/-- The text a byte string encodes, or where it fails to. -/
def decode (bytes : List UInt8) : Except Fault String :=
  String.ofList <$> ofPieces 0 (pieces bytes)

/-- The text a byte string encodes, if it does. -/
def decode? (bytes : List UInt8) : Option String := (decode bytes).toOption

/-- A piece as a character, U+FFFD standing for a fault. -/
def Piece.toChar : Piece → Char
  | .char c => c
  | _ => Char.ofNat 0xFFFD

/-- The text of a byte string with each fault replaced by U+FFFD. -/
def lossy (bytes : List UInt8) : String := String.ofList ((pieces bytes).map Piece.toChar)

/-- The letters of a piece, with a gap for each byte of a fault. -/
def Piece.letters : Piece → List (Option Char)
  | .char c => [some c]
  | .malformed n => List.replicate n none
  | .truncated n => List.replicate n none

/-- The letters of a byte string, with a gap for each byte that belongs to no character. -/
def letters (bytes : List UInt8) : List (Option Char) := (pieces bytes).flatMap Piece.letters

/-- The bytes of a text. -/
def encode (s : String) : List UInt8 := s.toUTF8.toList

/-- Whether a byte string may be cut at an index: at either end, and before a byte that no character
goes on with. -/
def isBoundary (bytes : List UInt8) (index : Nat) : Bool :=
  index = 0 || match bytes[index]? with
    | some b => !isTail b
    | none => index = bytes.length

/-- The first index at which a byte string may be cut, from one on downwards. There is none if the
search goes below zero. -/
def floorBoundary? (bytes : List UInt8) : Nat → Option Nat
  | 0 => if isBoundary bytes 0 then some 0 else none
  | index + 1 =>
    if isBoundary bytes (index + 1) then some (index + 1) else floorBoundary? bytes index

/-- The beginning of a text that is cut where it may be, at a number of bytes or before that. -/
def beginning? (s : String) (maxBytes : Nat) : Option String :=
  let bytes := encode s
  (if bytes.length ≤ maxBytes then some bytes.length else floorBoundary? bytes maxBytes).bind
    fun cut => decode? (bytes.take cut)

end SqlGate.Text.Utf8
