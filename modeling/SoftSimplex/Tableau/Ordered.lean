import SoftSimplex.Tableau.Pivot

/-!
Tableaux that know in which order the terms of each row arrived.

The order matters where a row is added to itself: its terms are changed one after another as they
arrived, and the first of them that vanishes puts an end to it (`addTerms`). A term keeps its place
as long as it stays in the row, and new terms follow in the order of the row that they come from.
-/

namespace SoftSimplex.Tableau

/-- A tableau, and the columns of each row in the order that they arrived in. -/
structure Ordered (K : Type) where
  tableau : Tableau K
  arrivals : Sorted.Map Column (List Column) := ∅

namespace Ordered

variable {K : Type} [Scalar K]

/-- The columns of a row, in the order that they arrived in. -/
def columnsOf (o : Ordered K) (key : Column) : List Column := (o.arrivals.get? key).getD []

/-- The columns of a changed row: those that stayed, and then the new ones in the order of their
source. -/
def arrange (row : Row K) (before source : List Column) : List Column :=
  ((before ++ source).filter row.terms.contains).eraseDups

omit [Scalar K] in
/-- A changed row is left with the columns of which it has a term. -/
theorem mem_arrange {row : Row K} {before source : List Column} {column : Column} :
    column ∈ arrange row before source ↔
      (column ∈ before ∨ column ∈ source) ∧ row.terms.contains column = true := by
  simp [arrange, List.mem_eraseDups, or_and_right]

/-- Take a changed tableau over, whose new terms come from a source. -/
def take (o : Ordered K) (source : List Column) (tableau : Tableau K) : Ordered K :=
  { tableau,
    arrivals := tableau.rows.toList.foldl
      (fun arrivals (key, row) => arrivals.insert key (arrange row (o.columnsOf key) source)) ∅ }

/-- Change the tableau without new terms. -/
def change (o : Ordered K) (f : Tableau K → Tableau K) : Ordered K := o.take [] (f o.tableau)

/-- Forget in which order the terms of a row arrived. -/
def forget (o : Ordered K) (key : Column) : Ordered K :=
  { o with arrivals := o.arrivals.erase key }

/-- Store a row of terms in order. -/
def insertRow (o : Ordered K) (column : Column) (terms : List (Column × K)) (constant : K) :
    Ordered K :=
  (o.forget column).take (terms.map (·.1)) (o.tableau.insertRow column (.ofTerms terms constant))

/-- Take a column out of the rows that the index names for it; it may come back as a new term. -/
def release (o : Ordered K) (column : Column) : Ordered K :=
  (o.tableau.rowsWith column).foldl
    (fun (o : Ordered K) key =>
      { o with arrivals := o.arrivals.insert key ((o.columnsOf key).filter (· ≠ column)) }) o

/-- Replace a column by a row of terms in order. -/
def substituteOut (o : Ordered K) (column : Column) (terms : List (Column × K)) (constant : K) :
    Ordered K :=
  (o.release column).take (terms.map (·.1))
    (o.tableau.substituteOut column (.ofTerms terms constant))

/-- Make a column basic in the row where another leaves the basis, which comes last in that row. -/
def pivot (entry exit : Column) : Step K (Ordered K) Unit := do
  let o ← Step.get
  let solved := (o.columnsOf exit).filter (· ≠ entry) ++ [exit]
  (Tableau.pivot entry exit).zoom (·.tableau) fun tableau o => o.take [] tableau
  Step.modify fun after => ((o.release entry).forget entry).take solved after.tableau

/-- Add to one coefficient of a row, dropping a term that comes out near zero. -/
def addToCoefficient (key column : Column) (coefficient : K) : Step K (Tableau K) Unit := do
  let old := ((← Step.get).term? key column).getD 0
  let _ ← Step.ofExcept (Step.checked (old + coefficient))
  Step.modify fun t => t.addToCoefficient key column coefficient

/-- Add multiples of the coefficients of a row to some columns of another. A row that is added to itself
and loses a term cannot be read on. -/
def addTerms (source key : Column) (multiplier : K) (columns : List Column) :
    Step K (Tableau K) Unit :=
  Step.forEach columns fun column => do
    let coefficient := ((← Step.get).term? source column).getD 0
    addToCoefficient key column (multiplier * coefficient)
    Step.ensure .rowChanged ((← Step.get).term? source column).isSome

/-- Add a multiple of a column to an objective, which may be that column's own row. -/
def addToObjective (column : Column) (coefficient : K) (objective : Column) :
    Step K (Ordered K) Unit := do
  let o ← Step.get
  let t := o.tableau.withObjective objective
  let columns := if t.isBasic column then o.columnsOf column else [column]
  Step.zoom (·.tableau) (fun tableau o => o.take columns tableau) do
    Step.set t
    match t.rows.get? column, t.rows.get? objective with
    | some row, some goal =>
      let constant ← Step.ofExcept (Step.checked (goal.constant + coefficient * row.constant))
      Step.modify fun t => t.setConstant objective constant
      addTerms column objective coefficient columns
    | _, _ => addToCoefficient objective column coefficient

end Ordered

end SoftSimplex.Tableau
