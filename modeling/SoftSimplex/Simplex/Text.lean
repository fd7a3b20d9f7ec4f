import SoftSimplex.Quantity.Rounding
import SoftSimplex.Tableau.Text

/-!
How solvers are written: what is done with the objective, and the tableau.
-/

namespace SoftSimplex.Simplex

/-- The text of a solver, unless a number in it is too large to be written. -/
def text? (s : Simplex Quantity) : Option String :=
  s.tableau.rounded?.map fun t => "[" ++ s.goal.text ++ "] " ++ t.text

end SoftSimplex.Simplex
