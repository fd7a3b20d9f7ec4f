import SoftSimplex.Simplex.Insert

/-!
Solving a linear program from scratch.
-/

namespace SoftSimplex

/-- The solution of a program, or the reason why it has none. -/
def Problem.solve {K : Type} [Scalar K] (tolerance : K) (problem : Problem K) :
    Except (Fault K) (Solution K) := do
  let made := Simplex.ofProblem (some tolerance) problem
  made.result
  made.state.solve.result

end SoftSimplex
