import SoftSimplex.Proofs.Row.Residual
import SoftSimplex.Proofs.Tableau.Scope

/-!
Rows in terms of columns outside the basis.

Replacing the basic columns of a row by their rows does not change its value where the tableau holds
(`Exact.eval_parametrize`), and leaves only columns outside the basis
(`WellFormed.parametric_parametrize`).
-/

namespace SoftSimplex

namespace Row

/-- Terms are added one by one. -/
theorem eval_addTerms (terms : List (Column × Rat)) (row : Row Rat) (σ : Column → Rat) :
    (terms.foldl (fun row term => row.addTerm term.1 term.2) row).eval σ =
      terms.foldl (fun sum term => sum + term.2 * σ term.1) (row.eval σ) := by
  induction terms generalizing row with
  | nil => rfl
  | cons term rest ih => rw [List.foldl_cons, ih, eval_addTerm, List.foldl_cons]

theorem eval_add (a b : Row Rat) (σ : Column → Rat) : (a + b).eval σ = a.eval σ + b.eval σ := by
  have terms := eval_addTerms b.terms.toList a σ
  have value : b.eval σ =
      b.terms.toList.foldl (fun sum term => sum + term.2 * σ term.1) b.constant := rfl
  rw [foldl_terms] at terms value
  change ((b.terms.toList.foldl (fun row term => row.addTerm term.1 term.2) a).addConstant
    b.constant).eval σ = _
  rw [eval_addConstant, terms, value]
  ring

theorem contains_addTerm {row : Row Rat} {column other : Column} {k : Rat} :
    (row.addTerm column k).terms.contains other = true ↔
      other = column ∨ row.terms.contains other = true := by
  rw [addTerm, Sorted.Map.contains, Sorted.Map.get?_insert, Sorted.Map.contains]
  split
  · next same => simp [same]
  · next different => simp [Ne.symm different]

theorem contains_addTerms {terms : List (Column × Rat)} {row : Row Rat} {other : Column} :
    (terms.foldl (fun row term => row.addTerm term.1 term.2) row).terms.contains other = true ↔
      (∃ k, (other, k) ∈ terms) ∨ row.terms.contains other = true := by
  induction terms generalizing row with
  | nil => simp
  | cons term rest ih =>
      rw [List.foldl_cons, ih, contains_addTerm]
      constructor
      · rintro (⟨k, member⟩ | rfl | before)
        · exact .inl ⟨k, List.mem_cons_of_mem _ member⟩
        · exact .inl ⟨term.2, List.mem_cons_self⟩
        · exact .inr before
      · rintro (⟨k, member⟩ | before)
        · rcases List.mem_cons.1 member with rfl | later
          · exact .inr (.inl rfl)
          · exact .inl ⟨k, later⟩
        · exact .inr (.inr before)

theorem contains_iff_mem_toList {row : Row Rat} {c : Column} :
    row.terms.contains c = true ↔ ∃ k, (c, k) ∈ row.terms.toList := by
  rw [Sorted.Map.contains_iff]
  exact exists_congr fun k => Sorted.Map.get?_eq_some_iff

theorem contains_add {a b : Row Rat} {c : Column} :
    (a + b).terms.contains c = true ↔ b.terms.contains c = true ∨ a.terms.contains c = true := by
  have listed : b.terms.contains c = true ↔ _ := contains_iff_mem_toList
  rw [listed]
  exact contains_addTerms

theorem contains_scale {factor : Rat} {row : Row Rat} {c : Column} :
    (row.scale factor).terms.contains c = row.terms.contains c := by
  rw [scale, Sorted.Map.contains, Sorted.Map.get?_map, Option.isSome_map, Sorted.Map.contains]

end Row

namespace Tableau

variable {t : Tableau Rat} {key c : Column} {row : Row Rat} {σ : Column → Rat}

/-- A row is in terms of columns outside the basis: it stores no zero, and mentions no basic column and
no objective. -/
structure Parametric (t : Tableau Rat) (row : Row Rat) : Prop where
  nonzero : ∀ c, row.terms.get? c ≠ some 0
  nonbasic : ∀ c, row.terms.contains c = true → t.rows.get? c = none
  plain : ∀ c, row.terms.contains c = true → c.isObjective = false

/-- At the basic solution a row in terms of columns outside the basis is its constant. -/
theorem Parametric.eval_basicSolution {row : Row Rat} (parametric : t.Parametric row) :
    row.eval t.basicSolution = row.constant := by
  rw [← row.eval_zero]
  exact Row.eval_congr fun c nonzero =>
    basicSolution_of_not_basic (parametric.nonbasic c (Row.contains_of_coefficient nonzero))

theorem purge_eq {e : Rat} (tolerance : t.tolerance = some e) (row : Row Rat) :
    t.purge row = row.purge e := by
  rw [purge, tolerance]
  rfl

/-- Add a multiple of a column to a row, replaced by its row if it is basic. -/
def replaceTerm (t : Tableau Rat) (result : Row Rat) (term : Column × Rat) : Row Rat :=
  match t.rows.get? term.1 with
  | some basic => result + basic.scale term.2
  | none => result.addTerm term.1 term.2

theorem parametrize_eq (t : Tableau Rat) (row : Row Rat) :
    t.parametrize row =
      t.purge (row.terms.toList.foldl t.replaceTerm (Row.ofConstant row.constant)) := by
  rw [parametrize, Sorted.Map.foldl]
  congr 2
  funext result term
  rw [replaceTerm]
  cases t.rows.get? term.1 <;> rfl

theorem Holds.eval_replaceTerms (holds : t.Holds σ) (terms : List (Column × Rat))
    (row : Row Rat) : (terms.foldl t.replaceTerm row).eval σ =
      terms.foldl (fun sum term => sum + term.2 * σ term.1) (row.eval σ) := by
  induction terms generalizing row with
  | nil => rfl
  | cons term rest ih =>
      have value : (t.replaceTerm row term).eval σ = row.eval σ + term.2 * σ term.1 := by
        rw [replaceTerm]
        cases found : t.rows.get? term.1 with
        | none => exact Row.eval_addTerm row term.1 term.2 σ
        | some basic =>
            dsimp only
            rw [Row.eval_add, Row.eval_scale, holds term.1 basic found]
            ring
      rw [List.foldl_cons, ih, value, List.foldl_cons]

/-- A row with its basic columns replaced by their rows, before it is purged. -/
theorem Holds.eval_unpurged (holds : t.Holds σ) (row : Row Rat) :
    (row.terms.toList.foldl t.replaceTerm (Row.ofConstant row.constant)).eval σ = row.eval σ := by
  rw [holds.eval_replaceTerms, Row.eval_ofConstant]
  rfl

theorem contains_replaceTerms {terms : List (Column × Rat)} {row : Row Rat}
    (present : (terms.foldl t.replaceTerm row).terms.contains c = true) :
    row.terms.contains c = true ∨ (∃ k, (c, k) ∈ terms ∧ t.rows.get? c = none) ∨
      ∃ key, t.Mentions key c := by
  induction terms generalizing row with
  | nil => exact .inl present
  | cons term rest ih =>
      rcases ih present with now | ⟨k, member, outside⟩ | mentioned
      · rw [replaceTerm] at now
        cases found : t.rows.get? term.1 with
        | none =>
            rw [found] at now
            rcases Row.contains_addTerm.1 now with rfl | before
            · exact .inr (.inl ⟨term.2, List.mem_cons_self, found⟩)
            · exact .inl before
        | some basic =>
            rw [found] at now
            rcases Row.contains_add.1 now with inBasic | before
            · rw [Row.contains_scale] at inBasic
              exact .inr (.inr ⟨term.1, mentions_iff.2 ⟨basic, found, inBasic⟩⟩)
            · exact .inl before
      · exact .inr (.inl ⟨k, List.mem_cons_of_mem _ member, outside⟩)
      · exact .inr (.inr mentioned)

theorem WellFormed.get?_purge_ne_zero (wf : t.WellFormed) (row : Row Rat) (c : Column) :
    (t.purge row).terms.get? c ≠ some 0 := by
  obtain ⟨e, tolerance, nonneg⟩ := wf.tolerant
  rw [purge_eq tolerance]
  exact Row.get?_purge_ne_zero nonneg row c

theorem WellFormed.contains_of_contains_purge (wf : t.WellFormed)
    (present : (t.purge row).terms.contains c = true) : row.terms.contains c = true := by
  obtain ⟨e, tolerance, -⟩ := wf.tolerant
  rw [purge_eq tolerance] at present
  exact Row.contains_of_contains_purge present

/-- What is left in a row was in it, or in the tableau, and is not basic. -/
theorem WellFormed.contains_parametrize (wf : t.WellFormed)
    (present : (t.parametrize row).terms.contains c = true) :
    t.rows.get? c = none ∧ (row.terms.contains c = true ∨ ∃ key, t.Mentions key c) := by
  rw [parametrize_eq] at present
  rcases contains_replaceTerms (wf.contains_of_contains_purge present) with
    before | ⟨k, member, outside⟩ | ⟨key, mentioned⟩
  · cases before
  · exact ⟨outside, .inl (Row.contains_iff_mem_toList.2 ⟨k, member⟩)⟩
  · exact ⟨wf.not_basic mentioned, .inr ⟨key, mentioned⟩⟩

theorem WellFormed.parametric_parametrize (wf : t.WellFormed)
    (plain : ∀ c, row.terms.contains c = true → c.isObjective = false) :
    t.Parametric (t.parametrize row) where
  nonzero c := by
    rw [parametrize_eq]
    exact wf.get?_purge_ne_zero _ c
  nonbasic c present := (wf.contains_parametrize present).1
  plain c present := (wf.contains_parametrize present).2.elim (plain c) fun ⟨key, mentioned⟩ =>
    wf.noObjective key c mentioned

/-- A column that the tableau does not know keeps its coefficient until the row is purged. -/
theorem WellFormed.coefficient_unpurged_of_new (wf : t.WellFormed) (new : c ∉ t.scope) (row : Row Rat) :
    (row.terms.toList.foldl t.replaceTerm (Row.ofConstant row.constant)).coefficient c =
      row.coefficient c := by
  have before := wf.holds_basicSolution
  have after := (wf.holds_update_of_new new t.basicSolution (t.basicSolution c + 1)).2 before
  have first := before.eval_unpurged row
  have second := after.eval_unpurged row
  rw [Row.eval_update_assignment, Row.eval_update_assignment, first] at second
  linarith

/-- A column that the tableau does not know stays in a row if its coefficient can be told from zero. -/
theorem WellFormed.contains_parametrize_of_new {e : Rat} (wf : t.WellFormed)
    (tolerance : t.tolerance = some e) (new : c ∉ t.scope) (far : e < |row.coefficient c|) :
    (t.parametrize row).terms.contains c = true := by
  obtain ⟨e', tolerance', nonneg⟩ := wf.tolerant
  obtain rfl := Option.some.inj (tolerance.symm.trans tolerance')
  rw [parametrize_eq, purge_eq tolerance, Row.contains_purge nonneg, wf.coefficient_unpurged_of_new new]
  exact far

section

variable (exact : t.Exact)
include exact

theorem Exact.eval_parametrize (holds : t.Holds σ) (row : Row Rat) :
    (t.parametrize row).eval σ = row.eval σ := by
  rw [parametrize_eq, purge_eq exact.exact, Row.eval_purge, holds.eval_unpurged]

/-- A column that the tableau does not know keeps its coefficient. -/
theorem Exact.coefficient_parametrize_of_new (new : c ∉ t.scope) (row : Row Rat) :
    (t.parametrize row).coefficient c = row.coefficient c := by
  rw [parametrize_eq, purge_eq exact.exact, Row.coefficient_purge,
    exact.coefficient_unpurged_of_new new]

end

end Tableau

end SoftSimplex
