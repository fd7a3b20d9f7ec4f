import SoftSimplex.Formula
import SoftSimplex.Literal.Text

/-!
What is said when a formula stands for nothing.
-/

namespace SoftSimplex

/-- The words for a formula that stands for nothing; wrong operands have none. -/
def FormulaFault.message? : FormulaFault → Option String
  | .dividedByZero => some "Expression divided by zero"
  | .noTruthValue =>
    some ("A Constraint has no truth value. Compare variables with `is` " ++
      "or pass the constraint to a solver.")
  | .constraintAsExpression =>
    some "Unsupported type for expression: <class 'casso.expressions.Constraint'>"
  | .valueAsExpression value => some s!"Unsupported type for expression: {value.typeText}"
  | .priority fault => some fault.message
  | .operands => none
  | .quotientByZero => none
  | .tooLong => none
  | .overflow => none
  | .noPriority => none

end SoftSimplex
