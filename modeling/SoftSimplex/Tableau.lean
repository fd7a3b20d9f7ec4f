import SoftSimplex.Sorted.Set
import SoftSimplex.Row

/-!
Sparse simplex tableaux.

`rows` holds, under each basic column and each objective, the row that defines it. `index` is meant
to be the inverse: under each column that is not basic, the rows that mention it. The index decides
which rows a substitution reaches, so it is kept as the program state that it is, beside the rows and
not computed from them: `insertRow` adds to it and clears nothing, and a column whose last mention
goes away keeps an empty entry.

A tableau also knows the restricted rows whose constant became negative (`infeasible`), and which
variables are basic or have been seen outside the basis, from which a solution is read.
-/

namespace SoftSimplex

open Sorted

/-- A simplex tableau with its tolerance. -/
structure Tableau (K : Type) where
  /-- Numbers this close to zero count as zero; without it nothing counts as zero. -/
  tolerance : Option K
  rows : Sorted.Map Column (Row K)
  index : Sorted.Map Column (Sorted.Set Column)
  /-- Restricted rows with a negative constant that await repair. -/
  infeasible : Sorted.Set Column
  /-- Variables that are basic. -/
  basicVariables : Sorted.Set Variable
  /-- Variables that were seen outside the basis. -/
  parametricVariables : Sorted.Set Variable
  /-- Whether what happens is written into a log, for which its numbers must be writable. -/
  logged : Bool := false

namespace Tableau

variable {K : Type} [Scalar K]

/-- The tableau without rows. -/
def empty (tolerance : Option K) (logged : Bool := false) : Tableau K :=
  { tolerance, rows := ∅, index := ∅, infeasible := ∅, basicVariables := ∅,
    parametricVariables := ∅, logged }

/-! ### Comparisons with the tolerance -/

/-- Whether a number cannot be told from zero. -/
def nearZero (t : Tableau K) (value : K) : Bool := t.tolerance.any fun e => Scalar.nearZero e value

/-- Whether a number lies below zero. -/
def isNegative (t : Tableau K) (value : K) : Bool := t.tolerance.any fun e => value < -e

/-- Whether a number lies above zero. -/
def isPositive (t : Tableau K) (value : K) : Bool := t.tolerance.any fun e => e < value

/-- A row without the terms whose coefficient cannot be told from zero. -/
def purge (t : Tableau K) (row : Row K) : Row K := t.tolerance.elim row fun e => row.purge e

/-! ### Rows by column -/

/-- Whether a column is basic. -/
def isBasic (t : Tableau K) (column : Column) : Bool := t.rows.contains column

/-- The rows that mention a column, in order. -/
def rowsWith (t : Tableau K) (column : Column) : List Column :=
  ((t.index.get? column).getD ∅).toList

/-! ### The index and the sets of variables -/

/-- Record in the index that a row mentions a column. -/
def link (t : Tableau K) (column row : Column) : Tableau K :=
  { t with index := t.index.insert column (((t.index.get? column).getD ∅).insert row) }

/-- Record in the index that a row no longer mentions a column; a column without entry gets none. -/
def unlink (t : Tableau K) (column row : Column) : Tableau K :=
  match t.index.get? column with
  | none => t
  | some rows => { t with index := t.index.insert column (rows.erase row) }

/-- Record that a column is basic, if it is a variable. -/
def markBasic (t : Tableau K) : Column → Tableau K
  | .external v => { t with basicVariables := t.basicVariables.insert v }
  | .symbol _ => t

/-- Record that a column is not basic, if it is a variable. -/
def unmarkBasic (t : Tableau K) : Column → Tableau K
  | .external v => { t with basicVariables := t.basicVariables.erase v }
  | .symbol _ => t

/-- Record that a column was seen outside the basis, if it is a variable. -/
def markParametric (t : Tableau K) : Column → Tableau K
  | .external v => { t with parametricVariables := t.parametricVariables.insert v }
  | .symbol _ => t

/-- Forget that a column was seen outside the basis, if it is a variable. -/
def unmarkParametric (t : Tableau K) : Column → Tableau K
  | .external v => { t with parametricVariables := t.parametricVariables.erase v }
  | .symbol _ => t

/-- Record that a row awaits repair. -/
def markInfeasible (t : Tableau K) (row : Column) : Tableau K :=
  { t with infeasible := t.infeasible.insert row }

/-- Record that a row awaits repair, if its constant is negative beyond the tolerance. -/
def markIfNegative (t : Tableau K) (row : Column) (constant : K) : Tableau K :=
  if t.isNegative constant then t.markInfeasible row else t

/-! ### Rows and columns -/

/-- Store a row and index its terms. The index of a row that was there before is not cleared. -/
def insertRow (t : Tableau K) (column : Column) (row : Row K) : Tableau K :=
  let stored := { t with rows := t.rows.insert column row }
  (row.terms.keys.foldl (fun t c => (t.link c column).markParametric c) stored).markBasic column

/-- Take a row out, together with its mentions in the index. -/
def removeRow (t : Tableau K) (column : Column) : Tableau K :=
  let unindexed :=
    match t.rows.get? column with
    | none => t
    | some row =>
      row.terms.keys.foldl (fun t c => t.unlink c column)
        { t with rows := t.rows.erase column }
  { unindexed with infeasible := unindexed.infeasible.erase column }.unmarkBasic column

/-- Set one coefficient of a row, if there is such a row. -/
def setTerm (t : Tableau K) (key column : Column) (coefficient : K) : Tableau K :=
  match t.rows.get? key with
  | none => t
  | some row =>
    { t with rows := t.rows.insert key { row with terms := row.terms.insert column coefficient } }

/-- Drop one term of a row, if there is such a row. -/
def dropTerm (t : Tableau K) (key column : Column) : Tableau K :=
  match t.rows.get? key with
  | none => t
  | some row => { t with rows := t.rows.insert key { row with terms := row.terms.erase column } }

/-- The term that a row has for a column, if there is such a row and such a term. -/
def term? (t : Tableau K) (key column : Column) : Option K :=
  (t.rows.get? key).bind fun row => row.terms.get? column

/-- Strike a column out of every row that the index names for it. -/
def removeColumn (t : Tableau K) (column : Column) : Tableau K :=
  let struck :=
    (t.rowsWith column).foldl (fun t key => t.dropTerm key column)
      { t with index := t.index.erase column }
  (struck.unmarkBasic column).unmarkParametric column

/-- Set the constant of a row, if there is one. -/
def setConstant (t : Tableau K) (column : Column) (constant : K) : Tableau K :=
  match t.rows.get? column with
  | none => t
  | some row => { t with rows := t.rows.insert column { row with constant } }

/-- Add to the constant of a row, if there is one. -/
def shiftConstant (t : Tableau K) (column : Column) (change : K) : Tableau K :=
  match t.rows.get? column with
  | none => t
  | some row => t.setConstant column (row.constant + change)

/-! ### Objectives -/

/-- Add to one coefficient of a row, dropping a term that comes out near zero. -/
def addToCoefficient (t : Tableau K) (key column : Column) (coefficient : K) : Tableau K :=
  let sum := (t.term? key column).getD 0 + coefficient
  if t.nearZero sum then (t.dropTerm key column).unlink column key
  else (t.setTerm key column sum).link column key

/-- The tableau with an objective, which is zero if it is new. -/
def withObjective (t : Tableau K) (objective : Column) : Tableau K :=
  if t.isBasic objective then t
  else { t with rows := t.rows.insert objective (Row.ofConstant 0) }

/-- Add a multiple of a column to an objective, which is made if it is missing. A basic column is
replaced by its row, so that objectives mention only columns that are not basic. -/
def addToObjective (t : Tableau K) (column : Column) (coefficient : K)
    (objective : Column := .objective) : Tableau K :=
  let t := t.withObjective objective
  match t.rows.get? column with
  | none => t.addToCoefficient objective column coefficient
  | some basic =>
    basic.terms.foldl (fun t c a => t.addToCoefficient objective c (coefficient * a))
      (t.shiftConstant objective (coefficient * basic.constant))

/-! ### Substitution -/

/-- One term of a substitution into a row: a new column is stored whatever its coefficient, and a sum
near zero drops the term. -/
def substituteTerm (t : Tableau K) (key : Column) (multiplier : K) (column : Column)
    (coefficient : K) : Tableau K :=
  match t.term? key column with
  | none => (t.setTerm key column (multiplier * coefficient)).link column key
  | some old =>
    let sum := old + multiplier * coefficient
    if t.nearZero sum then (t.dropTerm key column).unlink column key
    else t.setTerm key column sum

/-- Replace a column in one row, with a new constant, by a multiple of some terms. -/
def replaceTerms (t : Tableau K) (column key : Column) (row : Row K) (constant multiplier : K)
    (terms : List (Column × K)) : Tableau K :=
  terms.foldl (fun t term => t.substituteTerm key multiplier term.1 term.2)
    { t with rows := t.rows.insert key ⟨row.terms.erase column, constant⟩ }

/-- Record that a restricted row awaits repair, if its constant is negative beyond the tolerance. -/
def markIfRestricted (t : Tableau K) (key : Column) (constant : K) : Tableau K :=
  if key.isRestricted then t.markIfNegative key constant else t

/-- Replace a column in one row by the row that defines it. A restricted row whose constant becomes
negative awaits repair. -/
def substituteRow (column : Column) (solved : Row K) (t : Tableau K) (key : Column) : Tableau K :=
  match t.rows.get? key with
  | none => t
  | some row =>
    let multiplier := row.coefficient column
    let constant := row.constant + multiplier * solved.constant
    (t.replaceTerms column key row constant multiplier solved.terms.toList).markIfRestricted key
      constant

/-- Record that a column which no row mentions any more is basic. -/
def enterBasis (t : Tableau K) (column : Column) : Tableau K :=
  let marked := (t.markBasic column).unmarkParametric column
  { marked with index := marked.index.erase column }

/-- Replace a column by the row that defines it, in every row that the index names for it. -/
def substituteOut (t : Tableau K) (column : Column) (solved : Row K) : Tableau K :=
  ((t.rowsWith column).foldl (substituteRow column solved) t).enterBasis column

/-- A row in terms of columns that are not basic: every basic column is replaced by its row. -/
def parametrize (t : Tableau K) (row : Row K) : Row K :=
  let replaceTerm (result : Row K) (column : Column) (coefficient : K) : Row K :=
    match t.rows.get? column with
    | some basic => result + basic.scale coefficient
    | none => result.addTerm column coefficient
  t.purge (row.terms.foldl replaceTerm (Row.ofConstant row.constant))

/-! ### Columns by label, and the dense form -/

/-- The columns that are mentioned in some row, in order. -/
def mentioned (t : Tableau K) : List Column :=
  (Sorted.Set.ofList (t.rows.toList.flatMap fun entry => entry.2.terms.keys)).toList

/-- The columns that are basic, indexed or mentioned, in order. -/
def known (t : Tableau K) : List Column :=
  (Sorted.Set.ofList (t.rows.keys ++ t.index.keys ++ t.mentioned)).toList

/-- The first known column that is shown by a label. -/
def labelled? (t : Tableau K) (label : String) : Option Column :=
  t.known.find? fun column => column.label = label

/-- One line for each row: its constant, then the coefficient of each mentioned column. -/
def dense (t : Tableau K) : List (List K) :=
  let columns := t.mentioned
  t.rows.toList.map fun entry => entry.2.constant :: columns.map entry.2.coefficient

end Tableau

end SoftSimplex
