import SoftSimplex.Tableau.Primal

/-!
The dual simplex method on a tableau.

It repairs the rows that await repair, least row first, by letting them leave the basis for the
column that costs the objective least, so that the objective row stays optimal. Rows that are gone or
no longer negative need nothing and are dropped on the way.
-/

namespace SoftSimplex.Tableau

variable {K : Type} [Scalar K]

/-- Whether a row needs no repair: it is gone, or its constant is not negative. -/
def isRepaired (t : Tableau K) (column : Column) : Bool :=
  match t.rows.get? column with
  | none => true
  | some row => t.tolerance.any fun e => -e ≤ row.constant

/-- Drop the rows that need no repair, up to the first that needs it, and that one too. -/
def nextViolated (t : Tableau K) : Option Column × Tableau K :=
  let waiting := t.infeasible.toList.dropWhile t.isRepaired
  (waiting.head?, { t with infeasible := .ofList waiting.tail })

/-- The columns that can enter in a violated row, with what each costs the objective. -/
def entryCosts (t : Tableau K) (objective row : Row K) : Except (Fault K) (List (Column × K)) :=
  (row.terms.toList.filter fun term => t.isPositive term.2 && term.1.isPivotable).mapM
    fun (column, coefficient) =>
      match Scalar.quotient? (objective.coefficient column) coefficient with
      | none => .error .divisionByZero
      | some cost => (column, ·) <$> Step.checked cost

/-- Repair rows until none awaits repair, for a limited number of rounds. -/
def repairWithin (objective : Column) : Nat → Step K (Tableau K) Unit
  | 0 => Step.fail .unfinished
  | rounds + 1 => do
    let (violated, t) := (← Step.get).nextViolated
    Step.set t
    match violated with
    | none => return ()
    | some exit =>
      if t.tolerance.isNone then Step.fail .incomparable
      let row ← Step.ofOption (.missing exit) (t.rows.get? exit)
      let goal ← Step.ofOption (.missing objective) (t.rows.get? objective)
      let costs ← Step.ofExcept (t.entryCosts goal row)
      match leastRatio? costs with
      | none =>
        snapshot .dualFailed
        Step.fail .dualFailed
      | some (entry, _) =>
        pivot entry exit
        repairWithin objective rounds

/-- The dual simplex method: make every restricted row not negative again. -/
def repair (objective : Column) : Step K (Tableau K) Unit := do
  repairWithin objective (← Step.get).basisBound

end SoftSimplex.Tableau
