import SoftSimplex.Scalar
import SoftSimplex.Decimal.Quotient

/-!
Numbers as they are written.

A numeral is an integer of any size or a double. Integers among themselves are computed with exactly,
and their quotient is rounded once; an integer that meets a double is rounded to the nearest double
first, and one that is too large for that has no result. Comparisons are exact always (`atMost`).
-/

namespace SoftSimplex

/-- A number as it is written. -/
inductive Numeral where
  | integer (value : Int)
  | double (value : Float)
  deriving Repr

namespace Numeral

/-- The double nearest to a number, if there is one below infinity. -/
def toDouble? : Numeral → Option Float
  | .integer n =>
    let value := Float.ofInt n
    if Scalar.belowInfinity value && Scalar.belowInfinity (-value) then some value else none
  | .double value => some value

/-- The exact value of a number. -/
def exact : Numeral → Decimal.Binary
  | .integer n => .finite (n < 0) n.natAbs 0
  | .double value => .ofFloat value

/-- Whether a number is at most another; what is not a number compares with nothing. -/
def atMost : Numeral → Numeral → Bool
  | .integer a, .integer b => a ≤ b
  | .double a, .double b => a ≤ b
  | a, b => a.exact.atMost b.exact

/-- Whether two numbers are equal. -/
def equals (a b : Numeral) : Bool := a.atMost b && b.atMost a

/-- Whether a number is less than another. -/
def below (a b : Numeral) : Bool := a.atMost b && !b.atMost a

/-- Whether a number equals zero, of either sign. -/
def isZero (a : Numeral) : Bool := a.equals (.integer 0)

/-- Whether a number lies below positive infinity. -/
def belowInfinity : Numeral → Bool
  | .integer _ => true
  | .double value => Scalar.belowInfinity value

/-- Minus a number. -/
def neg : Numeral → Numeral
  | .integer n => .integer (-n)
  | .double value => .double (-value)

/-- Two numbers combined, exactly if both are integers. -/
def combine? (integers : Int → Int → Int) (doubles : Float → Float → Float) (a b : Numeral) :
    Option Numeral :=
  match a, b with
  | .integer m, .integer n => some (.integer (integers m n))
  | a, b => do return .double (doubles (← a.toDouble?) (← b.toDouble?))

/-- Sum of two numbers. -/
def add? : Numeral → Numeral → Option Numeral := combine? (· + ·) (· + ·)

/-- Difference of two numbers. -/
def sub? : Numeral → Numeral → Option Numeral := combine? (· - ·) (· - ·)

/-- Product of two numbers. -/
def mul? : Numeral → Numeral → Option Numeral := combine? (· * ·) (· * ·)

/-- Quotient of two numbers, a double always. A quotient by zero is an infinity or is not a number, as
among doubles. -/
def div? (a b : Numeral) : Option Numeral :=
  match a, b with
  | .integer m, .integer n =>
    if n = 0 then some (.double (Float.ofInt m / 0.0))
    else .double <$> Decimal.quotient? m n
  | a, b => do return .double ((← a.toDouble?) / (← b.toDouble?))

theorem not_below_self (a : Numeral) : a.below a = false := by
  cases h : a.atMost a <;> simp [below, h]

end Numeral

end SoftSimplex
