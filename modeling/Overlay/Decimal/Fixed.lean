import Overlay.Decimal.Binary

/-!
# Decimals with fixed places

A number is written with a fixed number of decimal places, correctly rounded from its exact
value; a tie goes to the even last digit.
-/
namespace Overlay.Decimal

/-- Decimal digits of `units / 10 ^ places`, with at least one digit before the point. -/
def fixedUnits (places units : Nat) : String :=
  let fraction := toString (units % Nat.pow 10 places)
  let padded := String.ofList (List.replicate (places - fraction.length) '0') ++ fraction
  if places = 0 then toString units else toString (units / Nat.pow 10 places) ++ "." ++ padded

/-- The number with so many decimal places. -/
def Binary.fixed (places : Nat) (b : Binary) : String :=
  fixedUnits places (roundRatio (b.num * Nat.pow 10 places) b.den)

end Overlay.Decimal
