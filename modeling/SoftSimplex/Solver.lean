import SoftSimplex.Config
import SoftSimplex.Simplex.Insert
import SoftSimplex.Simplex.Remove

/-!
A solver for constraints of which some are only wanted.

An optional constraint gets error columns, which take up what it falls short by, and each of them
costs the weight of the constraint in the objective that the inner simplex solver minimises. Every
insertion and removal is optimised at once. Edit sessions hold variables where they are (stays) and
let values be suggested for others (edits); both are optional constraints of their own.
-/

namespace SoftSimplex

/-- The columns of a constraint in the tableau. -/
structure Markers (K : Type) where
  /-- The column that is made basic to take the constraint back. -/
  main : Column
  /-- The column that moves when a value is suggested. -/
  sub : Option Column := none
  /-- The columns that cost the weight. -/
  errors : List Column := []
  weight : Option K := none

namespace Markers

variable {K : Type} [Scalar K]

/-- The columns that a new row may be solved for. -/
def columns (m : Markers K) : List Column :=
  match m.sub with
  | none => [m.main]
  | some sub => if sub = m.main then [m.main] else [m.main, sub]

/-- The sign with which a change of an edited value moves each marker. -/
def editSigns (m : Markers K) : List (Option Column × K) :=
  if m.sub = some m.main then [(m.sub, -1)] else [(some m.main, 1), (m.sub, -1)]

end Markers

/-- A constraint of the solver and its columns. -/
structure Installed (K : Type) where
  constraint : Constraint K
  markers : Markers K

/-- A variable whose value can be suggested. -/
structure Edit (K : Type) where
  constraint : Constraint K
  markers : Markers K
  /-- The value that was suggested last, or the one at registration. -/
  current : K

/-- The stays and edits of one edit session, in the order of their registration. -/
structure Session (K : Type) where
  stays : List (Variable × Installed K) := []
  edits : List (Variable × Edit K) := []

namespace Session

variable {K : Type}

/-- Whether a variable stays in this session. -/
def hasStay (session : Session K) (v : Variable) : Bool := session.stays.any fun entry => entry.1 = v

/-- Whether a value can be suggested for a variable in this session. -/
def hasEdit (session : Session K) (v : Variable) : Bool := session.edits.any fun entry => entry.1 = v

/-- The edit of a variable. -/
def edit? (session : Session K) (v : Variable) : Option (Edit K) :=
  (session.edits.find? fun entry => entry.1 = v).map (·.2)

/-- Record the value that was suggested last for a variable. -/
def suggested (session : Session K) (v : Variable) (value : K) : Session K :=
  { session with
    edits := session.edits.map fun (w, edit) =>
      if w = v then (w, { edit with current := value }) else (w, edit) }

/-- The constraints of the session, stays first. -/
def constraints (session : Session K) : List (Constraint K) :=
  session.stays.map (·.2.constraint) ++ session.edits.map (·.2.constraint)

end Session

/-- The state of a solver. -/
structure Solver (K : Type) where
  config : Config K
  simplex : Simplex K
  installed : Sorted.Map Tag (Installed K)
  /-- The open edit sessions, innermost first. -/
  sessions : List (Session K) := []
  /-- The values that were read last. -/
  cached : Values K := []
  /-- How many optional constraints got error columns. -/
  errorCount : Nat := 0
  /-- Whether suggested values await repair. -/
  needsRepair : Bool := false

namespace Solver

variable {K : Type} [Scalar K]

/-- A step on the inner simplex solver. -/
def onSimplex {α : Type} (x : Step K (Simplex K) α) : Step K (Solver K) α :=
  x.zoom (·.simplex) fun simplex s => { s with simplex }

/-- Change the tableau. -/
def changeTableau (change : Tableau K → Tableau K) : Step K (Solver K) Unit :=
  onSimplex (Simplex.changeTableau change)

/-- Let a column cost a weight in the objective, or withdraw it by its negation. The sum with what it
costs already is compared with zero. -/
def penalize (column : Column) (weight : K) : Step K (Solver K) Unit := do
  if (← Step.get).simplex.tableau.tolerance.isNone then Step.fail .incomparable
  else changeTableau (·.addToObjective column weight)

/-- The tableau. -/
def tableau (s : Solver K) : Tableau K := s.simplex.tableau

/-- A solver without constraints. -/
def create (config : Config K) : Solver K :=
  let simplex := (Simplex.ofProblem config.tolerance Problem.trivial config.logged).state
  { config, installed := ∅, simplex }

/-- Whether a constraint is registered. -/
def has (s : Solver K) (c : Constraint K) : Bool := s.installed.contains c.tag

/-- The number of open edit sessions. -/
def depth (s : Solver K) : Nat := s.sessions.length

/-- Whether a variable stays in some session. -/
def hasStay (s : Solver K) (v : Variable) : Bool := s.sessions.any (·.hasStay v)

/-- The edit of a variable in the innermost session that has one. -/
def edit? (s : Solver K) (v : Variable) : Option (Edit K) := s.sessions.findSome? (·.edit? v)

/-- Whether a value can be suggested for a variable. -/
def hasEdit (s : Solver K) (v : Variable) : Bool := (s.edit? v).isSome

/-- The value of a variable in the tableau as it is, zero if it is not basic. -/
def currentValue (s : Solver K) (v : Variable) : K :=
  ((s.tableau.rows.get? (.external v)).map (·.constant)).getD 0

/-- Move every stay to where its variable is, by setting the basic error columns of stays to zero. -/
def resetStays (s : Solver K) : Solver K :=
  let columns := s.sessions.flatMap fun session =>
    session.stays.flatMap fun entry => entry.2.markers.columns
  { s with
    simplex :=
      { s.simplex with
        tableau := columns.foldl (fun t column => t.setConstant column 0) s.simplex.tableau } }

/-- Forget which rows await repair. -/
def forgetInfeasible (s : Solver K) : Solver K :=
  { s with simplex := { s.simplex with tableau := { s.simplex.tableau with infeasible := ∅ } } }

/-- Read the values and keep them. -/
def readValues : Step K (Solver K) (Values K) := do
  let solution ← onSimplex Simplex.evaluate
  Step.modify fun s => { s with cached := solution.values }
  return solution.values

/-- Repair the rows that suggestions made negative, and read the values. -/
def solveRepaired : Step K (Solver K) (Values K) := do
  onSimplex Simplex.repair
  let values ← readValues
  Step.modify fun s => { s.forgetInfeasible.resetStays with needsRepair := false }
  return values

/-- Bring the solver to an optimum and read the values. -/
def solve : Step K (Solver K) (Values K) := do
  if (← Step.get).needsRepair then solveRepaired
  else
    onSimplex Simplex.optimize
    readValues

end Solver

end SoftSimplex
