import SoftSimplex.Row
import SoftSimplex.Decimal.Significant
import SoftSimplex.Text.Sum

/-!
How rows are written.
-/

namespace SoftSimplex.Row

/-- Differences up to this are not shown, whatever the tolerance of the solver. -/
def shownTolerance : Float := 1e-8

/-- The text of a term; coefficients one and minus one are left out. -/
def termText (column : Column) (coefficient : Float) : String :=
  if Scalar.nearZero shownTolerance (coefficient - 1.0) then column.label
  else if Scalar.nearZero shownTolerance (coefficient + 1.0) then "-" ++ column.label
  else Decimal.short coefficient ++ "*" ++ column.label

/-- The text of a row: its constant unless that is zero and there are terms, and its terms. -/
def text (row : Row Float) : String :=
  let terms := row.terms.toList.map fun entry => termText entry.1 entry.2
  if terms.isEmpty then Decimal.short row.constant
  else if Scalar.nearZero shownTolerance row.constant then Text.sum terms
  else Text.sum (Decimal.short row.constant :: terms)

end SoftSimplex.Row
