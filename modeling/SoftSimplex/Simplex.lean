import SoftSimplex.Tableau.Dual
import SoftSimplex.Problem
import SoftSimplex.Solution

/-!
An incremental simplex solver: a tableau, the constraints in it, and the columns that mark them.

Every constraint is marked by a column of its own, a slack column for an inequality and a dummy for
an equation, and taken back by way of it. Adding and removing only keep the tableau consistent;
`solve` optimises and reads the solution.
-/

namespace SoftSimplex

/-- A constraint in the tableau and the column that marks it. -/
structure Registration (K : Type) where
  constraint : Constraint K
  marker : Column

/-- The state of an incremental simplex solver. -/
structure Simplex (K : Type) where
  goal : Goal
  tableau : Tableau K
  registered : Sorted.Map Tag (Registration K)
  /-- How many slack columns were made, for constraints that are registered or not. -/
  slackCount : Nat := 0
  dummyCount : Nat := 0
  artificialCount : Nat := 0
  /-- The serial number of the next symbol. -/
  nextSerial : Nat := 2
  /-- The number of the next constraint that the solver poses itself. -/
  nextMade : Nat := 0
  /-- Whether a column may lower the objective. -/
  needsOptimize : Bool := false

namespace Simplex

variable {K : Type} [Scalar K]

/-- The solver without constraints or objective. -/
def empty (tolerance : Option K) (goal : Goal) (logged : Bool := false) : Simplex K :=
  { goal, tableau := .empty tolerance logged, registered := ∅ }

/-- A step on the tableau. -/
def onTableau {α : Type} (x : Step K (Tableau K) α) : Step K (Simplex K) α :=
  x.zoom (·.tableau) fun tableau s => { s with tableau }

/-- Change the tableau. -/
def changeTableau (change : Tableau K → Tableau K) : Step K (Simplex K) Unit :=
  onTableau (Step.modify change)

/-- Report the tableau as it is. -/
def snapshot (milestone : Milestone) : Step K (Simplex K) Unit :=
  onTableau (Tableau.snapshot milestone)

/-- Whether a constraint is registered. -/
def has (s : Simplex K) (c : Constraint K) : Bool := s.registered.contains c.tag

/-- Record which column marks a constraint. -/
def register (s : Simplex K) (c : Constraint K) (marker : Column) : Simplex K :=
  { s with registered := s.registered.insert c.tag ⟨c, marker⟩ }

/-! ### New columns and constraints -/

/-- A symbol that no other symbol of this solver equals. -/
def freshSymbol (kind : SymbolKind) (label : String) : Step K (Simplex K) Column := fun s =>
  ⟨.ok (.symbol ⟨kind, label, s.nextSerial⟩), { s with nextSerial := s.nextSerial + 1 }, []⟩

/-- A new slack column. -/
def freshSlack : Step K (Simplex K) Column := do
  Step.modify fun s => { s with slackCount := s.slackCount + 1 }
  freshSymbol .slack s!"s{(← Step.get).slackCount}"

/-- A new dummy column. -/
def freshDummy : Step K (Simplex K) Column := do
  Step.modify fun s => { s with dummyCount := s.dummyCount + 1 }
  freshSymbol .dummy s!"d{(← Step.get).dummyCount}"

/-- A new artificial column. -/
def freshArtificial : Step K (Simplex K) Column := do
  Step.modify fun s => { s with artificialCount := s.artificialCount + 1 }
  freshSymbol .artificial s!"a{(← Step.get).artificialCount}"

/-- A new tag for a constraint that the solver poses itself. -/
def freshTag : Step K (Simplex K) Tag := fun s =>
  ⟨.ok (.made s.nextMade), { s with nextMade := s.nextMade + 1 }, []⟩

/-! ### Optimising -/

/-- Minimise an objective row, if there may be something to gain. -/
def optimize (objective : Column := .objective) : Step K (Simplex K) Unit := do
  if (← Step.get).needsOptimize then
    match ← onTableau (Tableau.minimize objective) with
    | .reached => Step.modify fun s => { s with needsOptimize := false }
    | .noObjective => return ()

/-- Repair the rows that became negative. -/
def repair (objective : Column := .objective) : Step K (Simplex K) Unit :=
  onTableau (Tableau.repair objective)

/-! ### Solutions -/

/-- The variables that are not basic, at zero, and then the basic ones at the constants of their
rows. -/
def values (s : Simplex K) : Values K :=
  let rows := s.tableau.rows
  let parametric := s.tableau.parametricVariables.toList.filter fun v => !rows.contains (.external v)
  let basic := s.tableau.basicVariables.toList.filterMap fun v =>
    (rows.get? (.external v)).map fun row => (v, row.constant)
  parametric.map (fun v => (v, 0)) ++ basic

/-- The solution that the tableau stands for. -/
def solution? (s : Simplex K) : Except (Fault K) (Solution K) :=
  match s.tableau.rows.get? .objective with
  | none => .error (.missing .objective)
  | some row => do
    let objective ← Step.checked (s.goal.sign * row.constant)
    return { objective, values := s.values, tolerance := s.tableau.tolerance }

/-- Read the solution. -/
def evaluate : Step K (Simplex K) (Solution K) := do
  Step.ofExcept (← Step.get).solution?

/-- Optimise and read the solution. -/
def solve : Step K (Simplex K) (Solution K) := do
  optimize
  evaluate

end Simplex

end SoftSimplex
