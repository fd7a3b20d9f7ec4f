import SoftSimplex.Problem
import SoftSimplex.Constraint.Text

/-!
How linear programs are written.
-/

namespace SoftSimplex

/-- The text of an objective. -/
def Objective.text (objective : Objective Float) : String :=
  s!"{objective.goal.text} {objective.expression.text}"

/-- The text of a linear program, one line for each constraint. -/
def Problem.text (problem : Problem Float) : String :=
  "\n".intercalate (problem.objective.text :: "Constraints:" ::
    problem.constraints.map fun c => "  " ++ c.text)

end SoftSimplex
