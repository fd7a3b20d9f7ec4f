import SoftSimplex.Decimal.Significant

/-!
Quotients of whole numbers as doubles.

The quotient is rounded once, to the nearest double with ties to the even one, however large its two
numbers are.
-/

namespace SoftSimplex.Decimal

/-- The exponent of the leading bit of a positive quotient. -/
def leadingBit (numerator denominator : Nat) : Int :=
  let guess : Int := (numerator.log2 : Int) - denominator.log2
  let (scale, unit) := scaled 2 1 guess
  if denominator * scale ≤ numerator * unit then guess else guess - 1

/-- The double nearest to a quotient, infinite if it is too large for any double. A double has 53 bits,
the last of them worth two to the power of -1074 at least. -/
def nearestQuotient (numerator denominator : Nat) : Float :=
  if numerator = 0 then 0.0
  else
    let exponent := max (leadingBit numerator denominator - 52) (-1074)
    let (scale, unit) := scaled 2 1 exponent
    Float.scaleB (Float.ofNat (roundDiv (numerator * unit) (denominator * scale))) exponent

/-- The double nearest to the quotient of two integers, if there is one below infinity. A quotient of
zero has the sign of its divisor. -/
def quotient? (dividend divisor : Int) : Option Float :=
  let size := nearestQuotient dividend.natAbs divisor.natAbs
  if size < 1.0 / 0.0 then some (if (dividend < 0) = (divisor < 0) then size else -size) else none

end SoftSimplex.Decimal
