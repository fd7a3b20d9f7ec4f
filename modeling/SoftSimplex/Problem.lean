import SoftSimplex.Row

/-!
Linear programs: an objective, and constraints that must hold.
-/

namespace SoftSimplex

/-- What is done with an objective. -/
inductive Goal where
  | minimize
  | maximize
  deriving DecidableEq, Repr

namespace Goal

variable {K : Type} [Scalar K]

/-- The sign that turns a goal into minimising. -/
def sign : Goal → K
  | .minimize => 1
  | .maximize => -1

/-- How a goal is written. -/
def text : Goal → String
  | .minimize => "minimize"
  | .maximize => "maximize"

end Goal

/-- An expression that is to be minimised or maximised. -/
structure Objective (K : Type) where
  goal : Goal
  expression : LinExpr K

/-- The row to be minimised for an objective, with every term that is mentioned; to maximise is to
minimise the negation. -/
def Objective.unpurgedRow {K : Type} [Scalar K] (objective : Objective K) : Row K :=
  Row.accumulate [(objective.goal.sign, objective.expression)] (Row.ofConstant 0)

/-- The row to be minimised for an objective. -/
def Objective.row {K : Type} [Scalar K] (objective : Objective K) (tolerance : K) : Row K :=
  Row.ofExpr objective.goal.sign tolerance objective.expression

/-- A linear program. -/
structure Problem (K : Type) where
  objective : Objective K
  constraints : List (Constraint K) := []
  /-- Whether every variable of the program must not be negative. -/
  nonnegative : Bool := false

/-- The program with nothing to do. -/
def Problem.trivial {K : Type} [Scalar K] : Problem K := { objective := ⟨.minimize, .constant 0⟩ }

end SoftSimplex
