import SoftSimplex.Row.Solve
import SoftSimplex.Tableau.Substitution

/-!
Pivoting: one column enters the basis in the row where another leaves it.
-/

namespace SoftSimplex.Tableau

variable {K : Type} [Scalar K]

/-- Make `entry` basic in the row where `exit` was basic. The row is taken out first, so a pivot that
fails leaves the tableau without it. -/
def pivot (entry exit : Column) : Step K (Tableau K) Unit := do
  Step.report (.pivoting entry exit)
  let t ← Step.get
  Step.set (t.removeRow exit)
  let row ← Step.ofOption (.notBasic exit) (t.rows.get? exit)
  let solved := Row.solveFor entry row
  let reciprocal ← Step.ofExcept solved.result
  let definition : Row K :=
    { solved.state with terms := solved.state.terms.insert exit reciprocal }
  substitute entry definition
  Step.modify fun t => t.insertRow entry definition

end SoftSimplex.Tableau
