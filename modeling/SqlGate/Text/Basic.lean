/-!
# Blanks, widths and cuts

## Blank characters

The characters with the property of white space: the controls from the tabulator to the carriage
return, the next-line control, and the spaces and separators of all widths.
-/

namespace SqlGate.Text

/-- Whether a character is white space. -/
def isBlank (c : Char) : Bool :=
  let n := c.toNat
  (9 ≤ n && n ≤ 13) || n = 0x20 || n = 0x85 || n = 0xA0 || n = 0x1680 ||
    (0x2000 ≤ n && n ≤ 0x200A) || n = 0x2028 || n = 0x2029 || n = 0x202F || n = 0x205F ||
    n = 0x3000

/-- The blanks of ASCII are blank. -/
theorem isBlank_of_isWhitespace (c : Char) (h : c.isWhitespace = true) : isBlank c = true := by
  simp only [Char.isWhitespace, Bool.or_eq_true, decide_eq_true_eq] at h
  rcases h with ((h | h) | h) | h <;> subst h <;> decide

/-- A text without the blanks at its ends. -/
def trim (cs : List Char) : List Char :=
  ((cs.dropWhile isBlank).reverse.dropWhile isBlank).reverse

end SqlGate.Text

/-!
## Numbers of a fixed width

Decimal digits padded with leading zeros to a width; a sign counts towards the width.
-/

namespace SqlGate.Text

/-- `n` zeros. -/
def zeros (n : Nat) : String := String.ofList (List.replicate n '0')

/-- The decimal digits of a number. -/
def digits (n : Nat) : List Char := Nat.toDigits 10 n

/-- A number of at least `width` digits. -/
def padNat (width n : Nat) : String :=
  String.ofList (List.replicate (width - (digits n).length) '0' ++ digits n)

/-- An integer of at least `width` characters, the sign among them. -/
def padInt (width : Nat) (i : Int) : String :=
  if i < 0 then "-" ++ padNat (width - 1) i.natAbs else padNat width i.natAbs

/-- An integer in decimal. -/
def decimal (i : Int) : String := padInt 0 i

end SqlGate.Text

/-!
## Cutting lists

`cut` cuts a list at the elements with a property, which are left out; `find?` says where one list
first stands inside another.
-/

namespace SqlGate.Text

/-- The stretches of a list between the elements with a property. -/
def cut (p : α → Bool) : List α → List (List α)
  | [] => [[]]
  | x :: xs =>
    if p x then [] :: cut p xs
    else
      match cut p xs with
      | [] => [[x]]
      | s :: ss => (x :: s) :: ss

/-- There is one stretch more than there are cuts. -/
theorem length_cut (p : α → Bool) (xs : List α) : (cut p xs).length = xs.countP p + 1 := by
  induction xs with
  | nil => rfl
  | cons x xs ih =>
    by_cases h : p x
    · simp [cut, h, ih]
    · have : cut p xs ≠ [] := by intro e; simp [e] at ih
      cases hc : cut p xs with
      | nil => exact absurd hc this
      | cons s ss => simp [cut, h, hc, ← ih]

/-- The index at which a list first stands inside another one. -/
def find? [BEq α] (needle : List α) : List α → Option Nat
  | [] => if needle.isEmpty then some 0 else none
  | x :: xs => if needle.isPrefixOf (x :: xs) then some 0 else (find? needle xs).map (· + 1)

/-- Whether a text stands inside another one. -/
def contains (needle s : String) : Bool := (find? needle.toList s.toList).isSome

end SqlGate.Text
