import SoftSimplex.Solver

/-!
Taking constraints of any priority back.
-/

namespace SoftSimplex.Solver

variable {K : Type} [Scalar K]

/-- Take a constraint out of the tableau and optimise: its penalty is withdrawn, its main marker is
removed with its row, and what is left of its error columns is struck out. -/
def uninstall (c : Constraint K) : Step K (Solver K) Unit := do
  let found ← Step.ofOption (.constraintNotFound c) ((← Step.get).installed.get? c.tag)
  let markers := found.markers
  Step.modify fun s => { s with installed := s.installed.erase c.tag }
  Step.modify resetStays
  match markers.weight with
  | none => pure ()
  | some weight =>
    Step.forEach markers.errors fun error => penalize error (-weight)
  onSimplex (Simplex.remove c)
  Step.forEach (markers.errors.filter (· ≠ markers.main)) fun error =>
    changeTableau fun t => (t.removeRow error).removeColumn error
  onSimplex Simplex.optimize

/-- Remove a constraint that was added before, and optimise. -/
def remove (c : Constraint K) : Step K (Solver K) Unit := uninstall c

end SoftSimplex.Solver
