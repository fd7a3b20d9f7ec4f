import SoftSimplex.Proofs.Simplex.Carrying
import SoftSimplex.Proofs.Tableau.Paired

/-!
The rows of constraints, and columns that come in pairs.

An optional constraint is marked by two columns, which enter its row with opposite signs (`Markers.Pair`).
The row of any other constraint takes them from the rows of basic unknowns only, so that they cancel there
as well (`cancels_posedRow`).
-/

namespace SoftSimplex

variable {a b c : Column} {m : Markers Rat} {priority : Priority} {comparator : Comparator} {row : Row Rat}

namespace Row

theorem Cancels.insertAll {terms : List (Column × Rat)} (cancels : row.Cancels a b)
    (left : a ∉ terms.map (·.1)) (right : b ∉ terms.map (·.1)) : (insertAll terms row).Cancels a b := by
  induction terms generalizing row with
  | nil => exact cancels
  | cons term rest ih =>
      rw [List.map_cons, List.mem_cons, not_or] at left right
      rw [insertAll_cons]
      exact ih (cancels.insert (Ne.symm left.1) (Ne.symm right.1) term.2) left.2 right.2

end Row

namespace Markers

/-- Two columns mark an optional constraint, in this order. -/
structure Pair (m : Markers Rat) (a b : Column) : Prop where
  optional : m.weight.isSome = true
  main : m.main = a
  sub : m.sub = some b

/-- The columns of a pair are pivotable and different, and the constraint has no others. -/
theorem Fits.of_pair (fits : m.Fits priority comparator) (pair : m.Pair a b) :
    m.columns = [a, b] ∧ b ≠ a ∧ a.isPivotable = true ∧ b.isPivotable = true := by
  obtain ⟨optional, rfl, sub⟩ := pair
  cases fits with
  | wishedEquation plusIsSlack minusIsSlack apart =>
      obtain rfl := Option.some.inj sub
      exact ⟨columns_pair apart, apart, Column.pivotable_of_slack plusIsSlack,
        Column.pivotable_of_slack minusIsSlack⟩
  | wishedBound _ isSlack errorPivotable apart =>
      obtain rfl := Option.some.inj sub
      exact ⟨columns_pair apart, apart, Column.pivotable_of_slack isSlack, errorPivotable⟩
  | equation _ | bound _ _ | side _ _ _ _ | turnedSide _ _ _ _ => cases optional

/-- Every optional constraint has a pair. -/
theorem Fits.exists_pair (fits : m.Fits priority comparator) (optional : m.weight.isSome = true) :
    ∃ b, m.Pair m.main b := by
  cases fits with
  | wishedEquation _ _ _ | wishedBound _ _ _ _ => exact ⟨_, optional, rfl, rfl⟩
  | equation _ | bound _ _ | side _ _ _ _ | turnedSide _ _ _ _ => cases optional

theorem Fits.mem_columns_of_pair (fits : m.Fits priority comparator) (pair : m.Pair a b) :
    a ∈ m.columns ∧ b ∈ m.columns := by
  rw [(fits.of_pair pair).1]
  exact ⟨List.mem_cons_self, List.mem_cons_of_mem _ (List.mem_singleton_self b)⟩

/-- The columns of a pair enter the row of their constraint with opposite signs. -/
theorem Fits.cancels_mark (fits : m.Fits priority comparator) (pair : m.Pair a b) (row : Row Rat) :
    (m.mark row).Cancels a b := by
  obtain ⟨-, apart, pivotable, -⟩ := fits.of_pair pair
  obtain ⟨-, rfl, sub⟩ := pair
  have terms : m.terms = [(m.main, -1), (b, 1)] := by
    rw [terms, sub, if_neg (by simpa using apart)]
    simp [Column.not_dummy_of_pivotable pivotable]
  let first : Row Rat := { row with terms := row.terms.insert m.main (-1) }
  have marked : m.mark row = { first with terms := first.terms.insert b 1 } := by
    rw [mark, terms]
    rfl
  rw [marked, Row.Cancels, Row.coefficient_insert, Row.coefficient_insert, if_neg apart, if_pos rfl,
    Row.coefficient_insert, if_pos rfl]
  norm_num

end Markers

namespace Simplex

open Tableau

variable {s : Simplex Rat} {p : Posed}

theorem cancels_oriented (cancels : row.Cancels a b) : (oriented row).Cancels a b := by
  rw [oriented]
  split
  · exact cancels.scale (-1)
  · exact cancels

/-- The row of a constraint cancels its own pair, and every pair of others that the tableau has. -/
theorem cancels_posedRow (exact : s.tableau.Exact) (fits : p.Fits)
    (paired : p.markers.Pair a b ∨ s.tableau.Paired a b ∧ (a ∉ p.columns ∧ b ∉ p.columns) ∧
      a.isExternal = false ∧ b.isExternal = false) : (s.posedRow p).Cancels a b := by
  refine cancels_oriented ?_
  rcases paired with own | ⟨paired, ⟨left, right⟩, leftSymbol, rightSymbol⟩
  · exact Markers.Fits.cancels_mark fits own _
  · have reduced : (s.tableau.reduced p.constraint).Cancels a b :=
      paired.cancels_parametrize exact.exact leftSymbol rightSymbol fun c present =>
        exact.toWellFormed.external_of_contains_residual p.constraint present
    rw [Posed.columns, ← Markers.map_terms_eq_columns] at left right
    exact reduced.insertAll left right

end Simplex

end SoftSimplex
