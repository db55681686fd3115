/-!
# Numerals

A numeral is a nonempty row of digits of some base. Every letter counts in either case, and
nothing but digits may stand in the row. A sign is no part of it.
-/
namespace Overlay.Text

/-- The value of a digit or letter, read as a digit of a base large enough. -/
def digitValue (c : Char) : Option Nat :=
  let code := c.toNat
  if 48 ≤ code ∧ code ≤ 57 then some (code - 48)
  else if 97 ≤ code ∧ code ≤ 122 then some (code - 87)
  else if 65 ≤ code ∧ code ≤ 90 then some (code - 55)
  else none

/-- The value of a digit of this base. -/
def digit? (base : Nat) (c : Char) : Option Nat := (digitValue c).filter (· < base)

/-- The number that a row of digits continues. -/
def continueNumeral (base number : Nat) : List Char → Option Nat
  | [] => some number
  | c :: rest => do continueNumeral base (base * number + (← digit? base c)) rest

/-- The number that a row of digits stands for. -/
def numeral? (base : Nat) (digits : List Char) : Option Nat :=
  if digits.isEmpty then none else continueNumeral base 0 digits

/-- A text without a plus at its front, if it has one. -/
def dropPlus : List Char → List Char
  | '+' :: rest => rest
  | cs => cs

/-- The number below `2 ^ 64` that decimal digits stand for, with or without a plus before
them. -/
def word? (text : String) : Option Nat :=
  (numeral? 10 (dropPlus text.toList)).filter (· < UInt64.size)

end Overlay.Text
