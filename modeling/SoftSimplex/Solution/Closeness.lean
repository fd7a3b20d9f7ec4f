import SoftSimplex.Solution
import SoftSimplex.Quantity

/-!
Whether two solutions agree up to a tolerance.

Numbers are rounded to doubles when they are compared, and not before: what comes after the first
difference is not looked at.
-/

namespace SoftSimplex

/-- Why two numbers cannot be compared. -/
inductive ClosenessFault where
  | overflow
  | negativeTolerance
  deriving DecidableEq, Repr

/-- Whether two numbers are equal, or finite and at most the tolerance apart. -/
def Scalar.areClose {K : Type} [Scalar K] (tolerance a b : K) : Bool :=
  (a ≤ b && b ≤ a) ||
    (belowInfinity a && belowInfinity (-a) && belowInfinity b && belowInfinity (-b) &&
      nearZero tolerance (b - a))

/-- Whether two quantities, rounded to doubles, are close. -/
def Quantity.isClose (tolerance a b : Quantity) : Except ClosenessFault Bool :=
  match a.toDouble?, b.toDouble?, tolerance.toDouble? with
  | some a, some b, some tolerance =>
    if tolerance < 0 then .error .negativeTolerance else .ok (Scalar.areClose tolerance a b)
  | _, _, _ => .error .overflow

/-- Whether all pairs of quantities are close; the first that is not ends the search. -/
def Quantity.allClose (tolerance : Quantity) :
    List (Quantity × Quantity) → Except ClosenessFault Bool
  | [] => .ok true
  | (a, b) :: rest => do
    if ← Quantity.isClose tolerance a b then allClose tolerance rest else return false

/-- Whether two solutions agree, in their objectives and in the value of every variable. -/
def Solution.isClose (a b : Solution Quantity) (tolerance : Quantity) :
    Except ClosenessFault Bool := do
  if !(← Quantity.isClose tolerance a.objective b.objective) then return false
  else if !a.values.sameVariables b.values then return false
  else Quantity.allClose tolerance (a.values.map fun (v, value) => (value, b.values.value v))

end SoftSimplex
