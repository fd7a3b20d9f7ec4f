import SoftSimplex.Step

/-!
Solving a row for one of its columns.
-/

namespace SoftSimplex.Row

variable {K : Type} [Scalar K]

/-- Turn `0 = c + a·x + b·y` into `x = -c/a - (b/a)·y` and answer with `1/a`, the coefficient that
the column which was basic before takes in the solved row. The term of the column is taken out
before its coefficient is found to be zero. -/
def solveFor (column : Column) : Step K (Row K) K := do
  let row ← Step.get
  let coefficient ← Step.ofOption (.missing column) (row.terms.get? column)
  Step.set { row with terms := row.terms.erase column }
  let reciprocal ← Step.ofOption .divisionByZero (Scalar.quotient? 1 coefficient)
  let solved := ({ row with terms := row.terms.erase column } : Row K).scale (-reciprocal)
  Step.ensure .overflow (Scalar.isNumber reciprocal && solved.isNumeric)
  Step.set solved
  return reciprocal

end SoftSimplex.Row
