import SoftSimplex.Decimal.Binary
import SoftSimplex.Decimal.Layout

/-!
Numbers written with a given number of significant digits.

The digits are those of the exact value, rounded to the nearest with ties to the even digit.
-/

namespace SoftSimplex.Decimal

/-- A quotient rounded to the nearest whole number, a tie to the even one. -/
def roundDiv (numerator denominator : Nat) : Nat :=
  let whole := numerator / denominator
  let twice := 2 * (numerator % denominator)
  if denominator < twice || (twice = denominator && whole % 2 = 1) then whole + 1 else whole

/-- The exponent of the first digit of a positive quotient. -/
def leadingExponent (numerator denominator : Nat) : Int :=
  let guess : Int :=
    ((Nat.toDigits 10 numerator).length : Int) - (Nat.toDigits 10 denominator).length
  let (scale, unit) := scaled 10 1 guess
  if denominator * scale ≤ numerator * unit then guess else guess - 1

/-- A quotient divided by a power of ten, as a quotient. -/
def shifted (numerator denominator : Nat) (exponent : Int) : Nat × Nat :=
  let (scale, unit) := scaled 10 1 exponent
  (numerator * unit, denominator * scale)

/-- The first digits of a positive quotient, as many as asked for. -/
def significant (places numerator denominator : Nat) : Scientific :=
  let leading := leadingExponent numerator denominator
  let (n, d) := shifted numerator denominator (leading - (places - 1 : Nat))
  let significand := roundDiv n d
  if significand = Nat.pow 10 places then .ofSignificand 1 (leading + 1)
  else .ofSignificand significand leading

/-- The text of a double with at most some number of significant digits, without trailing zeros, and
with an exponent if that is below minus four or leaves no place for all digits. -/
def general (places : Nat) (x : Float) : String :=
  let sign (negative : Bool) : String := if negative then "-" else ""
  match Binary.ofFloat x with
  | .notANumber => "nan"
  | .infinite negative => sign negative ++ "inf"
  | .finite negative 0 _ => sign negative ++ "0"
  | .finite negative mantissa exponent =>
    let (n, d) := scaled 2 mantissa exponent
    let format : Layout := { positionalBelow := places, showsFraction := false }
    sign negative ++ format.text (significant places n d)

/-- The text of a number in messages and in the texts of rows and expressions: six digits. -/
def short (x : Float) : String := general 6 x

end SoftSimplex.Decimal
