import SoftSimplex.Proofs.Simplex.Settled
import SoftSimplex.Simplex.Insert

/-!
Solvers without constraints.

A solver begins with the row of its objective alone (`run_install`), which represents no constraint and
the objective (`carries_founded`).
-/

namespace SoftSimplex

namespace Tableau

variable {row : Row Rat} {logged : Bool} {c : Column}

theorem wellFormed_empty {e : Rat} (nonneg : 0 ≤ e) (logged : Bool) :
    (Tableau.empty (some e) logged).WellFormed where
  tolerant := ⟨e, rfl, nonneg⟩
  listed key column := by
    constructor
    · intro listed
      exact absurd listed (Sorted.Set.not_mem_empty _)
    · intro mentioned
      obtain ⟨row, found, -⟩ := mentions_iff.1 mentioned
      cases found
  separate column _ := rfl
  nonzero key column := by
    intro zero
    cases zero
  plain column indexed := by cases indexed
  basic v := ⟨fun member => absurd member (Sorted.Set.not_mem_empty _), fun stored => by cases stored⟩

theorem exact_empty (logged : Bool) : (Tableau.empty (some (0 : Rat)) logged).Exact :=
  ⟨wellFormed_empty le_rfl logged, rfl⟩

/-- The tableau of an objective alone. -/
def founded (row : Row Rat) (logged : Bool) : Tableau Rat :=
  (Tableau.empty (some 0) logged).insertRow .objective row

/-- The row of an objective stores no zero and is in unknowns of the caller. -/
structure Foundation (row : Row Rat) : Prop where
  nonzero : ∀ c, row.terms.get? c ≠ some 0
  external : ∀ c, row.terms.contains c = true → c.isExternal = true

theorem get?_founded : (founded row logged).rows.get? c =
    if .objective = c then some row else none := get?_insertRow

theorem Foundation.storable (foundation : Foundation row) (tolerance : Option Rat)
    (logged : Bool) : (Tableau.empty tolerance logged).Storable .objective row where
  absent := rfl
  unindexed := rfl
  nonzero := foundation.nonzero
  apart := by
    by_contra present
    have external := foundation.external .objective (Option.isSome_iff_ne_none.2 present)
    cases external
  noObjective c present := by
    cases c with
    | external v => rfl
    | symbol s => cases foundation.external _ present
  nonbasic _ _ := rfl

/-- The row of an objective represents no constraint. -/
theorem Foundation.represents (foundation : Foundation row) (logged : Bool) :
    (founded row logged).Represents [] fun σ => row.eval σ where
  toExact := (exact_empty logged).insertRow (foundation.storable _ logged)
  holds σ := by
    rw [founded, holds_insertRow rfl]
    refine and_congr_left fun _ => ⟨fun _ _ member => absurd member List.not_mem_nil,
      fun _ key row found => ?_⟩
    cases found
  blind σ τ same := Row.eval_congr fun c nonzero =>
    same c ((foundation.storable (some 0) logged).noObjective c (Row.contains_of_coefficient nonzero))
  stored := by
    rw [get?_founded, if_pos rfl]
    rfl
  idle := by
    rw [get?_founded, if_neg]
    simp [Column.objective, Column.artificialObjective]

theorem founded_restricted {key : Column} {row' : Row Rat}
    (restricted : key.isRestricted = true)
    (found : (founded row logged).rows.get? key = some row') : False := by
  rw [get?_founded] at found
  split at found
  · next same =>
      subst same
      cases restricted
  · cases found

theorem founded_shaped (row : Row Rat) (logged : Bool) : (founded row logged).Shaped where
  sheltered key c restricted mentioned := by
    obtain ⟨row', found, -⟩ := mentions_iff.1 mentioned
    exact (founded_restricted restricted found).elim
  anchored :=
    ⟨fun key c dummy mentioned => by
      obtain ⟨row', found, -⟩ := mentions_iff.1 mentioned
      exact (founded_restricted (Column.restricted_of_dummy dummy) found).elim,
    fun key row' dummy found =>
      (founded_restricted (Column.restricted_of_dummy dummy) found).elim⟩
  feasible c pivotable := by
    cases found : (founded row logged).rows.get? c with
    | none => rw [basicSolution_of_not_basic found]
    | some row' => exact (founded_restricted (Column.restricted_of_pivotable pivotable) found).elim

theorem founded_recorded (row : Row Rat) (logged : Bool) : (founded row logged).Recorded := by
  intro key pending
  rw [founded, infeasible_insertRow] at pending
  exact absurd pending (Sorted.Set.not_mem_empty _)

theorem mem_scope_founded :
    c ∈ (founded row logged).scope ↔ c = .objective ∨ row.terms.contains c = true := by
  rw [founded, mem_scope_insertRow]
  refine or_congr_right (or_iff_left fun known => ?_)
  rcases mem_scope.1 known with stored | indexed
  · cases stored
  · cases indexed

end Tableau

/-! ### Objectives -/

namespace Objective

variable {objective : Objective Rat}

/-- The row of an objective, without the terms that cancel. -/
def purgedRow (objective : Objective Rat) : Row Rat := objective.unpurgedRow.purge 0

theorem eval_purgedRow (objective : Objective Rat) (σ : Column → Rat) :
    objective.purgedRow.eval σ =
      objective.goal.sign * objective.expression.eval (onVariables σ) := by
  rw [purgedRow, Row.eval_purge, unpurgedRow, Row.eval_accumulate, Row.eval_ofConstant, zero_add,
    List.map_singleton, List.sum_singleton]

theorem foundation_purge {e : Rat} (nonneg : 0 ≤ e) (objective : Objective Rat) :
    Tableau.Foundation (objective.unpurgedRow.purge e) where
  nonzero := Row.get?_purge_ne_zero nonneg _
  external c present := by
    cases c with
    | external v => rfl
    | symbol s =>
        have inRow := Row.contains_of_contains_purge present
        rw [Sorted.Map.contains, unpurgedRow, Row.get?_accumulate_symbol] at inRow
        cases inRow

theorem foundation_purgedRow (objective : Objective Rat) :
    Tableau.Foundation objective.purgedRow := objective.foundation_purge le_rfl

end Objective

namespace Simplex

open Tableau

variable {objective : Objective Rat} {logged : Bool} {s : Simplex Rat}

/-- The solver of an objective alone. -/
def founded (objective : Objective Rat) (logged : Bool) : Simplex Rat :=
  (empty (some 0) objective.goal logged).withTableau
    (Tableau.founded objective.purgedRow logged)

theorem carries_founded (objective : Objective Rat) (logged : Bool) :
    (founded objective logged).Carries [] fun σ =>
      objective.goal.sign * objective.expression.eval (onVariables σ) where
  represents := (objective.foundation_purgedRow.represents logged).congr fun σ =>
    (objective.eval_purgedRow σ).symm
  family := .nil
  fresh c known := by
    rcases mem_scope_founded.1 known with rfl | present
    · exact Nat.zero_lt_two
    · cases c with
      | external v => trivial
      | symbol s => cases objective.foundation_purgedRow.external _ present
  below _ member := absurd member List.not_mem_nil

/-- Putting the objective in comes first. -/
theorem run_install_eq (problem : Problem Rat) {e : Rat} (nonneg : 0 ≤ e) (logged : Bool) :
    (install problem).run (empty (some e) problem.objective.goal logged) = (do
      Step.forEach problem.constraints add
      if problem.nonnegative then
        Step.forEach (← Step.get).knownVariables addNonnegative :
          Step Rat (Simplex Rat) Unit).run
        ((empty (some e) problem.objective.goal logged).withTableau
          ((Tableau.empty (some e) logged).insertRow .objective
            (problem.objective.unpurgedRow.purge e))) := by
  have purging := run_purged (s := empty (some e) problem.objective.goal logged)
    (wellFormed_empty nonneg logged) problem.objective.unpurgedRow
  rw [install, Step.run_bind_of_ok purging, Step.run_bind_of_ok (run_changeTableau _ _)]
  rfl

theorem run_install (problem : Problem Rat) (logged : Bool) :
    (install problem).run (empty (some 0) problem.objective.goal logged) = (do
      Step.forEach problem.constraints add
      if problem.nonnegative then
        Step.forEach (← Step.get).knownVariables addNonnegative :
          Step Rat (Simplex Rat) Unit).run (founded problem.objective logged) :=
  run_install_eq problem le_rfl logged

end Simplex

end SoftSimplex
