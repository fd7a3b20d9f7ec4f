import SoftSimplex.Quantity
import SoftSimplex.Solver

/-!
Rounding what holds quantities to doubles.

Everything that is shown is shown in doubles. Rounding keeps the form of a thing and puts the nearest
double in the place of each number in it; it fails if one of them has none.
-/

namespace SoftSimplex

/-- An expression in doubles. -/
def LinExpr.rounded? : LinExpr Quantity → Option (LinExpr Float)
  | .variable v => some (.variable v)
  | .constant value => value.toDouble?.map .constant
  | .add left right => do return .add (← left.rounded?) (← right.rounded?)
  | .scale factor body => do return .scale (← factor.toDouble?) (← body.rounded?)

/-- A constraint in doubles. -/
def Constraint.rounded? (c : Constraint Quantity) : Option (Constraint Float) := do
  return { tag := c.tag, left := ← c.left.rounded?, comparator := c.comparator,
           right := ← c.right.rounded?, priority := c.priority }

/-- An objective in doubles. -/
def Objective.rounded? (objective : Objective Quantity) : Option (Objective Float) := do
  return ⟨objective.goal, ← objective.expression.rounded?⟩

/-- A linear program in doubles. -/
def Problem.rounded? (problem : Problem Quantity) : Option (Problem Float) := do
  return { objective := ← problem.objective.rounded?, nonnegative := problem.nonnegative,
           constraints := ← problem.constraints.mapM Constraint.rounded? }

/-- A row in doubles. -/
def Row.rounded? (row : Row Quantity) : Option (Row Float) :=
  if row.all Scalar.isWritable then some (row.map Quantity.nearest) else none

/-- A tableau in doubles. -/
def Tableau.rounded? (t : Tableau Quantity) : Option (Tableau Float) :=
  if t.isWritable then
    some { tolerance := t.tolerance.map Quantity.nearest, rows := t.rows.map (·.map Quantity.nearest),
           index := t.index, infeasible := t.infeasible, basicVariables := t.basicVariables,
           parametricVariables := t.parametricVariables, logged := t.logged }
  else none

/-- Values in doubles. -/
def Values.rounded? (values : Values Quantity) : Option (Values Float) :=
  values.mapM fun (v, value) => do return (v, ← value.toDouble?)

/-- A solution in doubles. -/
def Solution.rounded? (s : Solution Quantity) : Option (Solution Float) := do
  return { objective := ← s.objective.toDouble?, values := ← s.values.rounded?,
           tolerance := s.tolerance.map Quantity.nearest }

/-- The columns of a constraint, with the weight in doubles. -/
def Markers.rounded? (m : Markers Quantity) : Option (Markers Float) := do
  return { main := m.main, sub := m.sub, errors := m.errors,
           weight := ← m.weight.mapM Quantity.toDouble? }

/-- An edit session in doubles. -/
def Session.rounded? (session : Session Quantity) : Option (Session Float) := do
  return {
    stays := ← session.stays.mapM fun (v, stay) => do
      return (v, ⟨← stay.constraint.rounded?, ← stay.markers.rounded?⟩)
    edits := ← session.edits.mapM fun (v, edit) => do
      return (v, ⟨← edit.constraint.rounded?, ← edit.markers.rounded?, ← edit.current.toDouble?⟩) }

/-- A fault in doubles; one whose numbers cannot be written is not told any more. -/
def Fault.rounded (fault : Fault Quantity) : Fault Float :=
  let told (fault? : Option (Fault Float)) : Fault Float := fault?.getD .overflow
  match fault with
  | .constraintExists c => told (.constraintExists <$> c.rounded?)
  | .constraintNotFound c => told (.constraintNotFound <$> c.rounded?)
  | .optionalConstraint c => told (.optionalConstraint <$> c.rounded?)
  | .stayExists v => .stayExists v
  | .editExists v => .editExists v
  | .editNotFound v suggested => told (.editNotFound v <$> suggested.toDouble?)
  | .infeasibleRow row => told (.infeasibleRow <$> row.rounded?)
  | .infeasible => .infeasible
  | .unbounded => .unbounded
  | .dualFailed => .dualFailed
  | .noSession => .noSession
  | .notBasic column => .notBasic column
  | .missing column => .missing column
  | .divisionByZero => .divisionByZero
  | .overflow => .overflow
  | .incomparable => .incomparable
  | .rowChanged => .rowChanged
  | .priority fault => .priority fault
  | .unfinished => .unfinished

/-- An event in doubles. -/
def Event.rounded? : Event Quantity → Option (Event Float)
  | .adding c => .adding <$> c.rounded?
  | .removing c => .removing <$> c.rounded?
  | .pivoting entry exit => some (.pivoting entry exit)
  | .entering entry exit ratio => .entering entry exit <$> ratio.toDouble?
  | .snapshot milestone t => .snapshot milestone <$> t.rounded?
  | .suggesting v value change => do
    return .suggesting v (← value.toDouble?) (← change.toDouble?)
  | .clamping priority limit => some (.clamping priority limit)

end SoftSimplex
