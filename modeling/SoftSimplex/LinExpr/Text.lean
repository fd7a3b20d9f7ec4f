import SoftSimplex.LinExpr
import SoftSimplex.Decimal.Significant
import SoftSimplex.Text.Sum

/-!
How linear expressions are written.
-/

namespace SoftSimplex.LinExpr

/-- Whether an expression is written without parentheses under a factor. -/
def isAtom {K : Type} : LinExpr K → Bool
  | .variable _ => true
  | .constant _ => true
  | .add _ _ => false
  | .scale _ _ => false

/-- How a factor is written before what it multiplies; minus one is a bare sign. -/
def factorText (factor : Float) : String :=
  if factor == -1.0 then "-" else Decimal.short factor ++ "*"

/-- The text of an expression. -/
def text : LinExpr Float → String
  | .variable v => v.label
  | .constant value => Decimal.short value
  | .add left right => Text.sum [left.text, right.text]
  | .scale factor body =>
    factorText factor ++ (if body.isAtom then body.text else "(" ++ body.text ++ ")")

end SoftSimplex.LinExpr
