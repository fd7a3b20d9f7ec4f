import SoftSimplex.Solver

/-!
Adding constraints of any priority.
-/

namespace SoftSimplex.Solver

variable {K : Type} [Scalar K]

/-- The priority of a constraint within the limit on strengths. -/
def admittedPriority (c : Constraint K) : Step K (Solver K) Priority := do
  Step.clamp c.priority (← Step.get).config.maxStrength

/-- The weight of a priority, none if it is required. -/
def weightOf : Priority → Step K (Solver K) (Option K)
  | .required => return none
  | .optional strength => do
    return some (← Step.ofOption .overflow ((← Step.get).config.weights strength))

/-- Number one more optional constraint. -/
def nextError : Step K (Solver K) Nat := do
  Step.modify fun s => { s with errorCount := s.errorCount + 1 }
  return (← Step.get).errorCount

/-- A new error column. -/
def freshError (label : String) : Step K (Solver K) Column :=
  onSimplex (Simplex.freshSymbol .slack label)

/-- The row of a constraint with its columns. A required equation is marked by a dummy. An optional
one has two error columns, for too much and for too little. An inequality subtracts a slack column,
and an optional one adds an error column to that. -/
def markedRow (c : Constraint K) : Step K (Solver K) (Row K × Markers K) := do
  let row ← onSimplex (Simplex.residualRow c)
  let weight ← weightOf (← admittedPriority c)
  let terms := row.terms
  let (terms, markers) ← (do
    match c.comparator, weight with
    | .eq, none =>
      let dummy ← onSimplex Simplex.freshDummy
      return (terms.insert dummy 1, { main := dummy, sub := some dummy })
    | .eq, some weight =>
      let n ← nextError
      let plus ← freshError s!"ep{n}"
      let minus ← freshError s!"em{n}"
      penalize minus weight
      penalize plus weight
      return ((terms.insert plus (-1)).insert minus 1,
        { main := plus, sub := some minus, errors := [plus, minus], weight := some weight })
    | _, none =>
      let slack ← onSimplex Simplex.freshSlack
      return (terms.insert slack (-1), { main := slack })
    | _, some weight =>
      let slack ← onSimplex Simplex.freshSlack
      let n ← nextError
      let error ← freshError s!"e{n}"
      penalize error weight
      return ((terms.insert slack (-1)).insert error 1,
        { main := slack, sub := some error, errors := [error], weight := some weight })
    : Step K (Solver K) (Sorted.Map Column K × Markers K))
  return (Simplex.oriented { row with terms }, markers)

/-- Put a constraint into the tableau and optimise. -/
def install (c : Constraint K) : Step K (Solver K) (Markers K) := do
  Step.report (.adding c)
  let (row, markers) ← markedRow c
  onSimplex (Simplex.insertRow row markers.columns)
  Step.modify fun s =>
    { s with
      simplex := s.simplex.register c markers.main
      installed := s.installed.insert c.tag ⟨c, markers⟩ }
  -- The weights in the objective are right only if every insertion is optimised.
  onSimplex Simplex.optimize
  onSimplex (Simplex.snapshot .constraintAdded)
  return markers

/-- Add a constraint and optimise. A constraint that fails is not taken back; see
`Step.transaction`. -/
def add (c : Constraint K) : Step K (Solver K) Unit := do
  if (← Step.get).has c then Step.fail (.constraintExists c)
  else
    let _ ← install c

end SoftSimplex.Solver
