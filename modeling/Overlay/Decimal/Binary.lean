/-!
# Binary approximations of nonnegative ratios

Averages are kept as binary numbers with a significand of 53 bits. Every operation gives the
binary number nearest to the exact result, and of two equally near ones the one with an even
significand. Exponents are not bounded, which the averages of a simulation never need.
-/
namespace Overlay.Decimal

/-- The nearest whole number to a ratio; of two, the even one. -/
def roundRatio (num den : Nat) : Nat :=
  let quotient := num / den
  let rest := num % den
  if den < 2 * rest then quotient + 1
  else if 2 * rest = den then quotient + quotient % 2
  else quotient

/-- A number `significand * 2 ^ exponent`. -/
structure Binary where
  /-- The significand, below `2 ^ 53` or equal to it after rounding up. -/
  significand : Nat
  /-- The power of two. -/
  exponent : Int
  deriving DecidableEq, Repr

namespace Binary

/-- The number zero. -/
def zero : Binary := ⟨0, 0⟩

/-- Numerator of the number as a ratio. -/
def num (b : Binary) : Nat := b.significand * Nat.pow 2 b.exponent.toNat

/-- Denominator of the number as a ratio. -/
def den (b : Binary) : Nat := Nat.pow 2 (-b.exponent).toNat

/-- The ratio in units of `2 ^ exponent`, rounded. -/
def atExponent (num den : Nat) (exponent : Int) : Nat :=
  roundRatio (num * Nat.pow 2 (-exponent).toNat) (den * Nat.pow 2 exponent.toNat)

/-- The binary number nearest to a ratio with a positive denominator. -/
def ofRatio (num den : Nat) : Binary :=
  if num = 0 then zero
  else
    let low : Int := (num.log2 : Int) - den.log2 - 53
    let whole := num * Nat.pow 2 (-low).toNat / (den * Nat.pow 2 low.toNat)
    let exponent := if whole < Nat.pow 2 53 then low else low + 1
    ⟨atExponent num den exponent, exponent⟩

/-- The nearest number to the sum. -/
def add (a b : Binary) : Binary := ofRatio (a.num * b.den + b.num * a.den) (a.den * b.den)

/-- The nearest number to the quotient by a positive whole number. -/
def divide (a : Binary) (n : Nat) : Binary := ofRatio a.num (a.den * n)

end Binary

end Overlay.Decimal
