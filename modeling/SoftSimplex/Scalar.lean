/-!
The numbers a tableau is filled with.

The solver needs little of its numbers: the four operations, the order, zero and one, and to know
which numbers lie below infinity, because a ratio is a bound only then. `Float` computes and `Rat`
is exact; every definition of the library is read at both. Tests against zero are made with a
tolerance (`nearZero`), and division by zero is refused (`quotient?`) and never answered with an
infinity.

An arithmetic may lack results. Its scalars then hold values that are no numbers (`isNumber`), and a
step that comes upon one fails. It may also have numbers that cannot be written down (`isWritable`), or
that are kept in another form than they are given in (`settled`).
-/

namespace SoftSimplex

/-- Numbers with arithmetic, an order that can be tested, and perhaps infinities. -/
class Scalar (K : Type) extends Add K, Sub K, Neg K, Mul K, Div K, LE K, LT K, Zero K, One K where
  decLE (a b : K) : Decidable (a ≤ b)
  decLT (a b : K) : Decidable (a < b)
  /-- Whether a number lies below positive infinity. -/
  belowInfinity : K → Bool
  /-- Whether a value is a number, and not what is left of an operation without a result. -/
  isNumber : K → Bool := fun _ => true
  /-- Whether a number can be written down. -/
  isWritable : K → Bool := fun _ => true
  /-- The number that is kept for one that a caller gives. -/
  settled : K → K := id

attribute [reducible] Scalar.decLE Scalar.decLT
attribute [instance] Scalar.decLE Scalar.decLT

/-- Doubles. Not-a-number compares with nothing, so it passes no test. -/
instance : Scalar Float where
  toZero := ⟨0.0⟩
  toOne := ⟨1.0⟩
  decLE := Float.decLe
  decLT := Float.decLt
  belowInfinity x := x < 1.0 / 0.0

/-- Exact rational numbers, all of them finite. -/
instance : Scalar Rat where
  toZero := ⟨0⟩
  toOne := ⟨1⟩
  decLE _ _ := inferInstance
  decLT _ _ := inferInstance
  belowInfinity _ := true

namespace Scalar

variable {K : Type} [Scalar K]

/-- Whether a number is at most the tolerance away from zero. -/
def nearZero (tolerance value : K) : Bool :=
  -tolerance ≤ value && value ≤ tolerance

/-- Whether a number equals zero, of either sign. -/
def isZero (value : K) : Bool :=
  value ≤ 0 && 0 ≤ value

/-- The quotient of two numbers, if the divisor is not zero. -/
def quotient? (dividend divisor : K) : Option K :=
  if isZero divisor then none else some (dividend / divisor)

@[simp] theorem isNumber_rat (value : Rat) : isNumber value = true := rfl

@[simp] theorem isWritable_rat (value : Rat) : isWritable value = true := rfl

@[simp] theorem settled_rat (value : Rat) : settled value = value := rfl

end Scalar

end SoftSimplex
