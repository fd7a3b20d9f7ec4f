import SoftSimplex.Simplex

/-!
Putting constraints into the tableau.

The residual row of a constraint, with its marker and with a constant that is not negative, enters at
once if it has a column that can become basic. Otherwise the first phase brings it in through an
artificial column: the row itself is minimised, and the constraint contradicts the others unless it
comes down to zero.
-/

namespace SoftSimplex.Simplex

variable {K : Type} [Scalar K]

/-- A row with a constant that is not negative, negated if need be. -/
def oriented (row : Row K) : Row K :=
  if row.constant < 0 then row.scale (-1) else row

/-- The column that a new row is solved for, or none if it needs the first phase. A row of dummies
takes the first of them if its constant is zero and contradicts the others if not. -/
def basicColumn? (tolerance : Option K) (row : Row K) (candidates : List Column) :
    Except (Fault K) (Option Column) :=
  match row.basicColumn? candidates with
  | some column => .ok (some column)
  | none =>
    if row.terms.keys.any fun column => !column.isDummy then .ok none
    else
      match row.terms.keys.head?, tolerance with
      | some dummy, some e =>
        if Scalar.nearZero e row.constant then .ok (some dummy) else .error (.infeasibleRow row)
      | some _, none => .error .incomparable
      | none, _ => .error (.infeasibleRow row)

/-- Put a row into the tableau, solved for one of its columns. -/
def insertSolved (row : Row K) (column : Column) : Step K (Tableau K) Unit := do
  let solved := Row.solveFor column row
  let _ ← Step.ofExcept solved.result
  Tableau.substitute column solved.state
  Step.modify fun t => t.insertRow column solved.state

/-- The column that takes the place of an artificial one that stayed basic at zero. -/
def replacement? (row : Row K) : Option Column :=
  row.terms.keys.find? Column.isPivotable <|> row.terms.keys.head?

/-- Bring the artificial objective down to zero, and the artificial column out of the basis. -/
def expelArtificial (artificial : Column) : Step K (Simplex K) Unit := do
  Step.modify fun s => { s with needsOptimize := true }
  optimize .artificialObjective
  let t := (← Step.get).tableau
  let goal ← Step.ofOption (.missing .artificialObjective) (t.rows.get? .artificialObjective)
  if t.tolerance.isNone then Step.fail .incomparable
  else if t.nearZero goal.constant then
    match t.rows.get? artificial with
    | none => return ()
    | some row =>
      match replacement? row with
      | some entry => onTableau (Tableau.pivot entry artificial)
      | none => changeTableau (·.removeRow artificial)
  else Step.fail .infeasible

/-- Put a row into the tableau through an artificial column. The artificial objective and the column
are taken out at the end, however it ended. -/
def insertByPhaseOne (row : Row K) : Step K (Simplex K) Unit := do
  let artificial ← freshArtificial
  changeTableau fun t => (t.insertRow .artificialObjective row).insertRow artificial row
  snapshot .beforePhaseOne
  (expelArtificial artificial).thenAlways do
    changeTableau fun t => (t.removeRow .artificialObjective).removeColumn artificial
    snapshot .afterPhaseOne

/-- Put a row whose constant is not negative into the tableau. -/
def insertRow (row : Row K) (candidates : List Column) : Step K (Simplex K) Unit := do
  match ← Step.ofExcept (basicColumn? (← Step.get).tableau.tolerance row candidates) with
  | some column => onTableau (insertSolved row column)
  | none => insertByPhaseOne row
  Step.modify fun s => { s with needsOptimize := true }

/-- A row without the terms whose coefficient cannot be told from zero. Without a tolerance that can
be told only of rows that have no terms. -/
def purged (row : Row K) : Step K (Simplex K) (Row K) := do
  let t := (← Step.get).tableau
  Step.ensure .overflow row.isNumeric
  if t.tolerance.isNone && !row.terms.isEmpty then Step.fail .incomparable
  else return t.purge row

/-- The residual row of a constraint in terms of columns that are not basic. -/
def residualRow (c : Constraint K) : Step K (Simplex K) (Row K) := do
  let row ← purged (Row.residual c)
  let parametrized := (← Step.get).tableau.parametrize row
  Step.ensure .overflow parametrized.isNumeric
  return parametrized

/-- The row of a required constraint with its new marker: a dummy for an equation, and a slack, which
is subtracted, for an inequality. -/
def markedRow (c : Constraint K) : Step K (Simplex K) (Row K × Column) := do
  let row ← residualRow c
  match c.comparator with
  | .eq =>
    let dummy ← freshDummy
    return (oriented { row with terms := row.terms.insert dummy 1 }, dummy)
  | _ =>
    let slack ← freshSlack
    return (oriented { row with terms := row.terms.insert slack (-1) }, slack)

/-- Add a required constraint. The tableau is not optimised before the next `solve`. -/
def add (c : Constraint K) : Step K (Simplex K) Unit := do
  if (← Step.get).has c then Step.fail (.constraintExists c)
  else if !c.priority.isRequired then Step.fail (.optionalConstraint c)
  else
    Step.report (.adding c)
    let (row, marker) ← markedRow c
    insertRow row [marker]
    Step.modify fun s => s.register c marker
    snapshot .constraintAdded

/-- Pose on the solver's own account that a variable is not negative. -/
def addNonnegative (v : Variable) : Step K (Simplex K) Unit := do
  let tag ← freshTag
  add { tag, left := .variable v, comparator := .ge, right := .constant 0 }

/-- The variables that the tableau mentions. -/
def knownVariables (s : Simplex K) : List Variable :=
  let indexed := s.tableau.index.keys.filterMap fun
    | .external v => some v
    | .symbol _ => none
  (Sorted.Set.ofList (s.tableau.basicVariables.toList ++ indexed)).toList

/-- Put the objective and the constraints of a program into an empty solver. -/
def install (problem : Problem K) : Step K (Simplex K) Unit := do
  let row ← purged problem.objective.unpurgedRow
  changeTableau (·.insertRow .objective row)
  Step.forEach problem.constraints add
  if problem.nonnegative then
    Step.forEach (← Step.get).knownVariables addNonnegative

/-- A solver for a program, or the reason why there is none. -/
def ofProblem (tolerance : Option K) (problem : Problem K) (logged : Bool := false) :
    Outcome K (Simplex K) Unit :=
  install problem (empty tolerance problem.objective.goal logged)

end SoftSimplex.Simplex
