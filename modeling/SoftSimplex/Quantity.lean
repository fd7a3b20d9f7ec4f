import SoftSimplex.Numeral

/-!
Numbers that a solver computes with when they come as they are written.

A quantity is a numeral, or the mark of a computation without result, in which an integer too large
for a double met a double. What is computed from that mark is that mark again, and it passes no test;
`isNumber` tells it from the numbers.
-/

namespace SoftSimplex

/-- A number as it is written, or the lack of one. -/
inductive Quantity where
  | number (value : Numeral)
  /-- An integer on the way was too large for a double. -/
  | overflow
  deriving Repr

namespace Quantity

/-- A double. -/
def double (value : Float) : Quantity := .number (.double value)

/-- The result of a computation that may have none. -/
def ofOption : Option Numeral → Quantity
  | some value => .number value
  | none => .overflow

/-- An operation on the numbers of two quantities. -/
def combine (operation : Numeral → Numeral → Option Numeral) : Quantity → Quantity → Quantity
  | .number a, .number b => ofOption (operation a b)
  | _, _ => .overflow

/-- A test of the numbers of two quantities. -/
def test (relation : Numeral → Numeral → Bool) : Quantity → Quantity → Bool
  | .number a, .number b => relation a b
  | _, _ => false

/-- Minus a quantity. -/
def neg : Quantity → Quantity
  | .number a => .number a.neg
  | .overflow => .overflow

/-- The double nearest to a quantity, if there is one below infinity. -/
def toDouble? : Quantity → Option Float
  | .number a => a.toDouble?
  | .overflow => none

/-- The double nearest to a quantity; without one, what is not a number. -/
def nearest (a : Quantity) : Float := a.toDouble?.getD (0.0 / 0.0)

instance : Scalar Quantity where
  add := combine Numeral.add?
  sub := combine Numeral.sub?
  mul := combine Numeral.mul?
  div := combine Numeral.div?
  neg := neg
  toZero := ⟨double 0.0⟩
  toOne := ⟨double 1.0⟩
  le a b := test Numeral.atMost a b = true
  lt a b := test Numeral.below a b = true
  decLE _ _ := inferInstanceAs (Decidable (_ = true))
  decLT _ _ := inferInstanceAs (Decidable (_ = true))
  belowInfinity
    | .number a => a.belowInfinity
    | .overflow => false
  isNumber
    | .number _ => true
    | .overflow => false
  isWritable a := a.toDouble?.isSome
  settled a := ofOption (.double <$> a.toDouble?)

/-- A computation with the lack of a number has none. -/
theorem not_isNumber_add_of_left {a b : Quantity} (lack : Scalar.isNumber a = false) :
    Scalar.isNumber (a + b) = false := by
  cases a with
  | number value => exact absurd lack (by simp [Scalar.isNumber])
  | overflow => rfl

end Quantity

end SoftSimplex
