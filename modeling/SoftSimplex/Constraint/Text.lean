import SoftSimplex.Constraint
import SoftSimplex.LinExpr.Text

/-!
How constraints are written.
-/

namespace SoftSimplex.Constraint

/-- The text of a constraint; only an optional one shows its priority. -/
def text (c : Constraint Float) : String :=
  let relation := s!"{c.left.text} {c.comparator.text} {c.right.text}"
  if c.priority.isRequired then relation else s!"{relation} | {c.priority.text}"

end SoftSimplex.Constraint
