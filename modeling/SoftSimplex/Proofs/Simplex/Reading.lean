import SoftSimplex.Proofs.Simplex.Removal

/-!
Optimising and reading solutions.

The values that are read are those of the basic solution (`Tableau.WellFormed.value_values`). Optimising
turns the tableau (`turns_of_optimize`), and comes to an optimum of every objective that is bounded on a
feasible tableau (`run_optimize_of_bounded`).
-/

namespace SoftSimplex

namespace Values

variable {values : Values Rat} {v : Variable} {x : Rat}

/-- What every entry of a variable says is its value. -/
theorem value_eq (agree : ∀ entry ∈ values, entry.1 = v → entry.2 = x)
    (present : (∃ entry ∈ values, entry.1 = v) ∨ x = 0) : values.value v = x := by
  rw [value]
  cases found : values.find? fun entry => entry.1 = v with
  | none =>
      refine (present.resolve_left ?_).symm
      rintro ⟨entry, member, same⟩
      exact List.find?_eq_none.1 found entry member (decide_eq_true same)
  | some entry =>
      have same := List.find?_some found
      exact agree entry (List.mem_of_find?_eq_some found) (of_decide_eq_true same)

end Values

namespace Simplex

open Tableau

variable {s s' : Simplex Rat} {t' : Tableau Rat} {goal : Row Rat} {objective : Column}

/-! ### Reading -/

/-- The values are those of the basic solution, where a missing variable reads zero. -/
theorem value_values (wf : s.tableau.WellFormed) (v : Variable) :
    s.values.value v = s.tableau.basicSolution (.external v) := by
  cases found : s.tableau.rows.get? (.external v) with
  | none =>
      rw [basicSolution_of_not_basic found]
      refine Values.value_eq (fun entry member same => ?_) (.inr rfl)
      rcases List.mem_append.1 member with parametric | basic
      · obtain ⟨w, -, rfl⟩ := List.mem_map.1 parametric
        rfl
      · obtain ⟨w, -, row⟩ := List.mem_filterMap.1 basic
        obtain ⟨row, foundRow, rfl⟩ := Option.map_eq_some_iff.1 row
        dsimp only at same
        rw [same, found] at foundRow
        cases foundRow
  | some row =>
      rw [basicSolution_of_basic found]
      refine Values.value_eq (fun entry member same => ?_) (.inl ⟨(v, row.constant), ?_, rfl⟩)
      · rcases List.mem_append.1 member with parametric | basic
        · obtain ⟨w, kept, rfl⟩ := List.mem_map.1 parametric
          have outside := (List.mem_filter.1 kept).2
          dsimp only at same
          rw [same, Sorted.Map.contains, found] at outside
          cases outside
        · obtain ⟨w, -, own⟩ := List.mem_filterMap.1 basic
          obtain ⟨row', foundRow, rfl⟩ := Option.map_eq_some_iff.1 own
          dsimp only at same
          rw [same, found] at foundRow
          cases foundRow
          rfl
      · refine List.mem_append.2 (.inr (List.mem_filterMap.2 ⟨v, ?_, by rw [found]; rfl⟩))
        exact Sorted.Set.mem_toList.2 ((wf.basic v).2 (by rw [found]; rfl))

/-- Where the objective is stored the solution is read. -/
theorem run_evaluate (found : s.tableau.rows.get? .objective = some goal) :
    evaluate.run s = (.ok
      { objective := s.goal.sign * goal.constant, values := s.values,
        tolerance := s.tableau.tolerance }, s) := by
  have solution : s.solution? = .ok
      { objective := s.goal.sign * goal.constant, values := s.values,
        tolerance := s.tableau.tolerance } := by
    rw [solution?, found]
    rfl
  rw [evaluate, Step.run_bind_get, solution, Step.run_ofExcept]

/-! ### Optimising -/

/-- What optimising leaves alone. -/
structure Turned (s s' : Simplex Rat) : Prop where
  goal : s'.goal = s.goal
  registered : s'.registered = s.registered
  nextMade : s'.nextMade = s.nextMade
  serial : s'.nextSerial = s.nextSerial
  turns : s.tableau.Turns s'.tableau

/-- Optimising turns the tableau, and makes no pivotable column negative. -/
theorem turns_of_optimize (exact : s.tableau.Exact) (fixed : objective.isPivotable = false)
    (answered : (optimize objective).run s = (.ok (), s')) :
    s.Turned s' ∧ (s.tableau.Feasible → s'.tableau.Feasible) := by
  cases needed : s.needsOptimize with
  | false =>
      rw [run_optimize_of_not_needed needed] at answered
      obtain ⟨-, rfl⟩ := Prod.mk.inj answered
      exact ⟨⟨rfl, rfl, rfl, rfl, .refl⟩, id⟩
  | true =>
      have ending := ending_minimize exact fixed
      generalize ran : (minimize objective).run s.tableau = ended at ending
      cases ending with
      | reached turns feasible _ _ _ =>
          rw [run_optimize_of_reached needed ran] at answered
          obtain ⟨-, rfl⟩ := Prod.mk.inj answered
          exact ⟨⟨rfl, rfl, rfl, rfl, turns⟩, feasible⟩
      | noObjective absent =>
          rw [optimize, Step.run_bind_get, needed, if_pos rfl,
            Step.run_bind_of_ok (run_onTableau_of_ok ran)] at answered
          obtain ⟨-, rfl⟩ := Prod.mk.inj answered
          exact ⟨⟨rfl, rfl, rfl, rfl, .refl⟩, id⟩
      | unbounded turns _ _ _ _ =>
          rw [run_optimize_of_error needed ran] at answered
          cases answered
      | unfinished _ _ =>
          rw [run_optimize_of_error needed ran] at answered
          cases answered

/-- Where nothing lowers the objective, optimising leaves the tableau as it is. -/
theorem run_optimize_of_minimal (exact : s.tableau.Exact) (needed : s.needsOptimize = true)
    (found : s.tableau.rows.get? objective = some goal) (minimal : Minimal goal) :
    (optimize objective).run s = (.ok (), s.optimized s.tableau) := by
  refine run_optimize_of_reached needed ?_
  obtain ⟨rounds, bound⟩ : ∃ rounds, s.tableau.basisBound = rounds + 1 :=
    Nat.exists_eq_succ_of_ne_zero (Nat.pow_pos Nat.zero_lt_two).ne'
  rcases exact.entering?_cases goal with ⟨entering, -⟩ | ⟨entry, -, drives⟩
  · rw [minimize, Step.run_bind_get, bound, minimizeWithin, Step.run_bind_get, found]
    simp only [entering, Step.run_bind_ofExcept_ok, Step.run_return]
  · exact absurd (minimal entry drives.pivotable) (not_le.2 drives.negative)

/-- A bounded objective of a feasible tableau comes to an optimum. -/
theorem run_optimize_of_bounded (exact : s.tableau.Exact) (needed : s.needsOptimize = true)
    (feasible : s.tableau.Feasible) (stored : (s.tableau.rows.get? .objective).isSome)
    (bounded : ∃ least, ∀ σ, s.tableau.Holds σ → (∀ c, c.isPivotable = true → 0 ≤ σ c) →
      least ≤ σ .objective) :
    ∃ t', optimize.run s = (.ok (), s.optimized t') ∧ s.tableau.Turns t' ∧ t'.Feasible ∧
      s.tableau.Lowers .objective t' ∧ t'.Optimized := by
  obtain ⟨t', goal, ran, turns, feasible', lowers, found, minimal⟩ :=
    run_minimize_of_bounded exact rfl feasible stored bounded
  refine ⟨t', run_optimize_of_reached needed ran, turns, feasible', lowers, fun other found' => ?_⟩
  rw [found] at found'
  cases found'
  exact minimal

end Simplex

end SoftSimplex
