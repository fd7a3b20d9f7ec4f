import SoftSimplex.Solver

/-!
Suggesting values.

A suggestion shifts the constants of the tableau as if the edited constraint had been written with
the new value from the start, and the dual simplex method repairs the rows that became negative.
-/

namespace SoftSimplex.Solver

variable {K : Type} [Scalar K]

/-- The first marker that is basic, with the sign that a change moves it by. -/
def basicMarker? (t : Tableau K) (markers : Markers K) : Option (Column × K) :=
  markers.editSigns.findSome? fun (column, sign) =>
    column.bind fun column => if t.isBasic column then some (column, sign) else none

/-- Shift the constant of one row by its coefficient of the moving column. -/
def shiftRow (column : Column) (change : K) (key : Column) : Step K (Tableau K) Unit := do
  let t ← Step.get
  let row ← Step.ofOption (.missing key) (t.rows.get? key)
  let coefficient ← Step.ofOption (.missing column) (row.terms.get? column)
  let constant ← Step.ofExcept (Step.checked (row.constant + coefficient * change))
  Step.set ((t.setConstant key constant).markIfRestricted key constant)

/-- Move the constants of the tableau for a change of an edited value. A basic marker takes up the
whole change; if none is basic, every row moves that mentions the moving column. -/
def shift (markers : Markers K) (change : K) : Step K (Tableau K) Unit := do
  let t ← Step.get
  match basicMarker? t markers with
  | some (column, sign) =>
    let row ← Step.ofOption (.missing column) (t.rows.get? column)
    let constant ← Step.ofExcept (Step.checked (row.constant + sign * change))
    Step.set ((t.setConstant column constant).markIfNegative column constant)
  | none =>
    match markers.sub with
    | none => return ()
    | some column => Step.forEach (t.rowsWith column) (shiftRow column change)

/-- Record the value that was suggested last, in the innermost session that can edit the variable. -/
def recordSuggested (v : Variable) (value : K) : List (Session K) → List (Session K)
  | [] => []
  | session :: outer =>
    if session.hasEdit v then session.suggested v value :: outer
    else session :: recordSuggested v value outer

/-- Apply one suggestion to the tableau. The next `solve` repairs it. -/
def suggestValue (v : Variable) (value : K) : Step K (Solver K) Unit := do
  let s ← Step.get
  match s.edit? v with
  | none => Step.fail (.editNotFound v value)
  | some edit =>
    let change ← Step.ofExcept (Step.checked (value - edit.current))
    Step.modify fun s =>
      { s with sessions := recordSuggested v value s.sessions, needsRepair := true }
    Step.ensure .overflow
      (!s.tableau.logged || (Scalar.isWritable value && Scalar.isWritable change))
    Step.report (.suggesting v value change)
    onSimplex (Simplex.onTableau (shift edit.markers change))

/-- Suggested values as they are kept, if every variable can be edited. -/
def checkSuggestions (s : Solver K) : Values K → Except (Fault K) (Values K)
  | [] => .ok []
  | (v, value) :: rest => do
    if s.hasEdit v then
      let kept ← Step.checked (Scalar.settled value)
      return (v, kept) :: (← s.checkSuggestions rest)
    else .error (.editNotFound v value)

/-- Suggest values and solve. Every suggestion is checked before any of them is applied. -/
def suggest (suggestions : Values K) : Step K (Solver K) (Values K) := do
  let kept ← Step.ofExcept ((← Step.get).checkSuggestions suggestions)
  Step.forEach kept fun entry => suggestValue entry.1 entry.2
  solveRepaired

end SoftSimplex.Solver
