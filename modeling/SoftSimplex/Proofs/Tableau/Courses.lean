import SoftSimplex.Proofs.Tableau.Consistent

/-!
The pivots of the primal simplex method.

From a feasible tableau the method goes a `Course`: a list of pivots, each of which answers, leaves no
pivotable row negative and does not raise the objective. A course is as long as it has to be and never cut
off (`Consistent.minimize_cases`); it ends where no pivotable column lowers the objective, or where one does
that no row bounds.
-/

namespace SoftSimplex.Tableau

variable {t t' u v v' : Tableau Rat} {objective entry exit : Column} {goal row : Row Rat}
  {ratio : Rat}

/-- Pivots one after the other, with no pivotable row negative at any stop and the objective nowhere above
where it was before. -/
inductive Course (objective : Column) : Tableau Rat → List (Column × Column) → Tableau Rat → Prop where
  | stop {t : Tableau Rat} (feasible : t.Feasible) : Course objective t [] t
  | turn {t t' t'' : Tableau Rat} {entry exit : Column} {pivots : List (Column × Column)}
      (feasible : t.Feasible) (made : (pivot entry exit).run t = (.ok (), t'))
      (lowered : t'.basicSolution objective ≤ t.basicSolution objective)
      (later : Course objective t' pivots t'') : Course objective t ((entry, exit) :: pivots) t''

namespace Course

variable {pivots : List (Column × Column)} (course : Course objective t pivots t')
include course

theorem feasible : t'.Feasible := by
  induction course with
  | stop feasible => exact feasible
  | turn _ _ _ _ ih => exact ih

/-- The objective ends no higher than it started. -/
theorem lowers : t'.basicSolution objective ≤ t.basicSolution objective := by
  induction course with
  | stop _ => exact le_rfl
  | turn _ _ lowered _ ih => exact ih.trans lowered

end Course

/-! ### One round -/

/-- A round that pivots. -/
theorem minimizeWithin_of_pivot (found : v.rows.get? objective = some goal)
    (entering : v.entering? goal = .ok (some entry))
    (leaving : v.leaving? entry = .ok (some (exit, ratio)))
    (made : pivot entry exit v = ⟨.ok (), v', [.pivoting entry exit]⟩) (rounds : ℕ) :
    minimizeWithin objective (rounds + 1) v =
      ⟨(minimizeWithin objective rounds v').result, (minimizeWithin objective rounds v').state,
        .entering entry exit ratio :: .pivoting entry exit ::
          (minimizeWithin objective rounds v').events⟩ := by
  rw [minimizeWithin, Step.bind_get_apply]
  simp only [found, entering, leaving, Step.bind_ofExcept_ok_apply]
  have rest : (pivot entry exit >>= fun _ => minimizeWithin objective rounds) v = _ :=
    Step.run_bind_ok (x := pivot entry exit) (s := v) (by rw [made])
  rw [Step.run_bind_ok (x := Step.report _) rfl]
  simp only [Step.report, rest, made, List.cons_append, List.nil_append]

/-- A round that finds a column which no row bounds. -/
theorem minimizeWithin_of_free (found : v.rows.get? objective = some goal)
    (entering : v.entering? goal = .ok (some entry)) (leaving : v.leaving? entry = .ok none)
    (rounds : ℕ) : minimizeWithin objective (rounds + 1) v =
      ⟨.error .unbounded, v, [.snapshot .unbounded v]⟩ := by
  rw [minimizeWithin, Step.bind_get_apply]
  simp only [found, entering, leaving, Step.bind_ofExcept_ok_apply]
  rw [Step.run_bind_ok (x := snapshot .unbounded) (by rw [snapshot_eq]), snapshot_eq]
  rfl

/-! ### Consistent tableaus and their tidied copies -/

namespace Mirrors

variable (mirrors : t.Mirrors u)
include mirrors

theorem entering?_eq (goal : Row Rat) : t.entering? goal = u.entering? goal := by
  have negative (value : Rat) : t.isNegative value = u.isNegative value := by
    rw [isNegative, isNegative, mirrors.consistent.exact, mirrors.exact.exact]
  simp only [entering?, negative, mirrors.consistent.exact, mirrors.exact.exact]

theorem leaving?_eq (entry : Column) : t.leaving? entry = u.leaving? entry := by
  rw [leaving?, leaving?, mirrors.rowsWith_eq]
  simp only [rowsOf, mirrors.rows]

/-- The primal method does the same with both, on a course. -/
theorem minimizeWithin (objective : Column) (rounds : ℕ) :
    Step.Together Mirrors (minimizeWithin objective rounds t) (minimizeWithin objective rounds u) ∧
      (t.Feasible → Course objective t (Tableau.minimizeWithin objective rounds t).pivots
        (Tableau.minimizeWithin objective rounds t).state) := by
  induction rounds generalizing t u with
  | zero => exact ⟨.fail .unfinished mirrors, .stop⟩
  | succ rounds ih =>
      cases stored : u.rows.get? objective with
      | none =>
          have absent := stored
          rw [← mirrors.rows] at absent
          rw [Tableau.minimizeWithin, Step.bind_get_apply, Step.bind_get_apply]
          simp only [stored, absent]
          exact ⟨.pure Optimum.noObjective mirrors, .stop⟩
      | some goal =>
          have found := stored
          rw [← mirrors.rows] at found
          rcases mirrors.exact.entering?_cases goal with ⟨entering, -⟩ | ⟨entry, entering, drives⟩
          · rw [Tableau.minimizeWithin, Step.bind_get_apply, Step.bind_get_apply]
            simp only [stored, found, mirrors.entering?_eq, entering, Step.bind_ofExcept_ok_apply]
            exact ⟨.pure Optimum.reached mirrors, .stop⟩
          · have entering' := mirrors.entering?_eq goal
            rw [entering] at entering'
            have leaving' := mirrors.leaving?_eq entry
            rcases mirrors.exact.leaving?_cases entry with ⟨leaving, -⟩ | ⟨exit, row, leaving, bounds⟩
            · rw [leaving] at leaving'
              rw [minimizeWithin_of_free found entering' leaving',
                minimizeWithin_of_free stored entering leaving]
              exact ⟨⟨rfl, rfl, mirrors⟩, .stop⟩
            · rw [leaving] at leaving'
              have pivotal : t.Pivotal entry exit row :=
                ⟨mirrors.rows ▸ bounds.found, bounds.pivotal.mentioned, bounds.pivotal.plain⟩
              obtain ⟨together, course⟩ := ih (mirrors.pivoted pivotal)
              rw [minimizeWithin_of_pivot found entering' leaving' (mirrors.pivot_eq pivotal),
                minimizeWithin_of_pivot stored entering leaving (mirrors.exact.pivot_eq bounds.pivotal)]
              refine ⟨⟨together.result, congrArg ((entry, exit) :: ·) together.pivots, together.state⟩,
                fun feasible => ?_⟩
              have before := mirrors.feasible_iff.1 feasible
              have after := bounds.feasible mirrors.exact before
              have next := mirrors.pivoted pivotal
              refine .turn feasible (by rw [Step.run, mirrors.pivot_eq pivotal]) ?_
                (course (next.feasible_iff.2 after))
              rw [next.basicSolution_eq, mirrors.basicSolution_eq]
              exact (bounds.lowers mirrors.exact before stored drives).le

end Mirrors

/-! ### How a course ends -/

/-- What a run of the primal method leaves where it is not cut off: an objective that no pivotable column
lowers, if there is one, or a column that lowers it and that no row bounds. -/
inductive Closed (objective : Column) : Except (Fault Rat) Optimum × Tableau Rat → Prop where
  | reached {t : Tableau Rat} {goal : Row Rat} (found : t.rows.get? objective = some goal)
      (minimal : Minimal goal) : Closed objective (.ok .reached, t)
  | noObjective {t : Tableau Rat} (absent : t.rows.get? objective = none) :
      Closed objective (.ok .noObjective, t)
  | unbounded {t : Tableau Rat} {goal : Row Rat} {entry : Column}
      (found : t.rows.get? objective = some goal) (drives : Drives goal entry)
      (free : t.Unbounded entry) : Closed objective (.error .unbounded, t)

/-- From a feasible tableau the primal method goes a course to its end. -/
theorem Consistent.closed_minimize (consistent : t.Consistent) (feasible : t.Feasible)
    (fixed : objective.isPivotable = false) :
    Course objective t (minimize objective t).pivots (minimize objective t).state ∧
      Closed objective ((minimize objective).run t) := by
  have mirrors := consistent.mirrors
  obtain ⟨together, course⟩ := mirrors.minimizeWithin objective t.basisBound
  have ending := ending_minimizeWithin mirrors.exact fixed t.basisBound
  rw [minimize, Step.bind_get_apply]
  refine ⟨course feasible, ?_⟩
  rw [Step.run_bind_get]
  obtain ⟨result, -, state⟩ := together
  rw [Step.run, result]
  rw [Step.run] at ending
  generalize (minimizeWithin objective t.basisBound t.tidied).result = answer at ending
  generalize (minimizeWithin objective t.basisBound t.tidied).state = last at ending state
  generalize ended : (answer, last) = outcome at ending
  cases ending with
  | reached _ _ _ found minimal =>
      cases ended
      exact .reached (state.rows ▸ found) minimal
  | noObjective absent =>
      cases ended
      exact .noObjective (state.rows ▸ absent)
  | unbounded _ _ found drives free =>
      cases ended
      refine .unbounded (state.rows ▸ found) drives fun key row stored => ?_
      rw [state.rows] at stored
      exact free key row stored
  | unfinished start descent =>
      have less := descent.lt_basisBound (start ▸ mirrors.feasible_iff.1 feasible)
      rw [start] at less
      exact absurd (basisBound_tidied_le t) (not_le.2 less)

end SoftSimplex.Tableau
