import SoftSimplex.Tableau.Pivot
import SoftSimplex.Tableau.Snapshot

/-!
The primal simplex method on a tableau.

The entering column is the first in the order of columns that lowers the objective, and among the
rows that bound it the first of those with the least ratio leaves. Taking the first both times keeps
degenerate tableaux from cycling, so the number of steps is bounded by the number of bases, and that
bound is the fuel of the loop.
-/

namespace SoftSimplex.Tableau

variable {K : Type} [Scalar K]

/-- The first of the candidates with the least ratio. A ratio counts only below infinity. -/
def leastRatio? (candidates : List (Column × K)) : Option (Column × K) :=
  candidates.foldl
    (fun best candidate =>
      let better :=
        match best with
        | none => Scalar.belowInfinity candidate.2
        | some (_, least) => decide (candidate.2 < least)
      if better then some candidate else best)
    none

/-- The rows stored under some columns, or a fault if one is missing. -/
def rowsOf (t : Tableau K) (columns : List Column) : Except (Fault K) (List (Column × Row K)) :=
  columns.mapM fun column =>
    match t.rows.get? column with
    | none => .error (.missing column)
    | some row => .ok (column, row)

/-- The first pivotable column whose coefficient in the objective is negative. Without a tolerance
that can be told only where no column is pivotable. -/
def entering? (t : Tableau K) (objective : Row K) : Except (Fault K) (Option Column) :=
  let pivotable := objective.terms.toList.filter fun term => term.1.isPivotable
  if t.tolerance.isNone && !pivotable.isEmpty then .error .incomparable
  else .ok ((pivotable.find? fun term => t.isNegative term.2).map (·.1))

/-- How far the entering column can grow before a row becomes negative, if that row bounds it. -/
def growthBound? (entry : Column) (row : Row K) : Option K :=
  let coefficient := row.coefficient entry
  if coefficient < 0 then some (-row.constant / coefficient) else none

/-- The row that bounds the entering column first, with its ratio. -/
def leaving? (t : Tableau K) (entry : Column) : Except (Fault K) (Option (Column × K)) := do
  let rows ← t.rowsOf ((t.rowsWith entry).filter Column.isPivotable)
  let bounds := rows.filterMap fun (column, row) =>
    (growthBound? entry row).map fun ratio => (column, ratio)
  return leastRatio? (← bounds.mapM fun (column, ratio) => return (column, ← Step.checked ratio))

/-- Whether a run of the simplex method came to the end of its work. -/
inductive Optimum where
  /-- No pivotable column lowers the objective. -/
  | reached
  /-- There is no objective. -/
  | noObjective
  deriving DecidableEq, Repr

/-- Pivot while a column lowers the objective, for a limited number of rounds. -/
def minimizeWithin (objective : Column) : Nat → Step K (Tableau K) Optimum
  | 0 => Step.fail .unfinished
  | rounds + 1 => do
    let t ← Step.get
    match t.rows.get? objective with
    | none => return .noObjective
    | some row =>
      match ← Step.ofExcept (t.entering? row) with
      | none => return .reached
      | some entry =>
        match ← Step.ofExcept (t.leaving? entry) with
        | none =>
          snapshot .unbounded
          Step.fail .unbounded
        | some (exit, ratio) =>
          Step.report (.entering entry exit ratio)
          pivot entry exit
          minimizeWithin objective rounds

/-- A bound on the number of bases: each column is basic or not. -/
def basisBound (t : Tableau K) : Nat :=
  Nat.pow 2 (t.rows.size + t.index.size + t.mentioned.length)

/-- The primal simplex method: pivot until no pivotable column lowers the objective. -/
def minimize (objective : Column) : Step K (Tableau K) Optimum := do
  minimizeWithin objective (← Step.get).basisBound

end SoftSimplex.Tableau
