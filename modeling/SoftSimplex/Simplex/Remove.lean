import SoftSimplex.Simplex

/-!
Taking constraints out of the tableau: the marker of the constraint is made basic, and then its row
is deleted.
-/

namespace SoftSimplex.Simplex

variable {K : Type} [Scalar K]

/-- The rows that mention a marker, with its coefficients, or a fault if one is not as the index
says. -/
def markerRows (t : Tableau K) (marker : Column) (keys : List Column) :
    Except (Fault K) (List (Column × K × K)) :=
  keys.mapM fun key =>
    match t.rows.get? key with
    | none => .error (.missing key)
    | some row =>
      match row.terms.get? marker with
      | none => .error (.missing marker)
      | some coefficient => .ok (key, coefficient, row.constant)

/-- The row that leaves the basis for a marker. Restricted rows where the marker has a negative
coefficient come first, because the others stay feasible then; among them, and then among all
restricted rows, the least ratio decides. Without either it is the first row that is no objective. -/
def removalExit? (t : Tableau K) (marker : Column) : Except (Fault K) (Option Column) := do
  let users := (t.rowsWith marker).filter fun row => !row.isObjective
  let restricted ← markerRows t marker (users.filter Column.isRestricted)
  let bounding := restricted.filterMap fun (key, coefficient, constant) =>
    if coefficient < 0 then some (key, -constant / coefficient) else none
  let bounds ← bounding.mapM fun (key, ratio) => return (key, ← Step.checked ratio)
  match Tableau.leastRatio? bounds with
  | some (exit, _) => return some exit
  | none =>
    let ratios ← restricted.mapM fun (key, coefficient, constant) =>
      match Scalar.quotient? constant coefficient with
      | none => .error .divisionByZero
      | some ratio => (key, ·) <$> Step.checked ratio
    match Tableau.leastRatio? ratios with
    | some (exit, _) => return some exit
    | none => return users.head?

/-- Make a marker basic, or strike its column out if no row mentions it. -/
def expose (marker : Column) : Step K (Tableau K) Unit := do
  let t ← Step.get
  if t.isBasic marker then return ()
  match ← Step.ofExcept (removalExit? t marker) with
  | none => Step.modify (·.removeColumn marker)
  | some exit => Tableau.pivot marker exit

/-- Remove a constraint that was added before. -/
def remove (c : Constraint K) : Step K (Simplex K) Unit := do
  match (← Step.get).registered.get? c.tag with
  | none => Step.fail (.constraintNotFound c)
  | some registration =>
    Step.modify fun s => { s with registered := s.registered.erase c.tag }
    Step.report (.removing c)
    Step.modify fun s => { s with needsOptimize := true }
    onTableau (expose registration.marker)
    changeTableau (·.removeRow registration.marker)
    snapshot .constraintRemoved

end SoftSimplex.Simplex
