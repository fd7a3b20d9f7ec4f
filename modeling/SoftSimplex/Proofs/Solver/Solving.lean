import SoftSimplex.Proofs.Simplex.Founding
import SoftSimplex.Proofs.Solver.Uninstalling

/-!
Solvers of callers: how they are created, and what they answer at rest.

A solver is created at rest (`rests_create`). At rest it adds every constraint that the required ones do
not contradict (`Rests.add`), takes back every constraint that is no required equation (`Rests.remove`),
and its solution is that of the tableau as it is (`Rests.run_solve`).
-/

namespace SoftSimplex

namespace Config

/-- The largest strength that is not lowered. -/
def limit (config : Config Rat) : Nat :=
  match config.maxStrength with
  | .integer limit => limit.toNat
  | _ => 0

/-- What falling short of a priority costs, once its strength was lowered to the limit; nothing is said
of required constraints. -/
def weight? (config : Config Rat) : Priority → Option Rat
  | .required => none
  | .optional strength => config.weights (min strength config.limit)

/-- Settings for exact arithmetic: nothing but zero counts as zero, the limit on strengths is a strength,
and every strength has a positive weight. -/
structure Exact (config : Config Rat) : Prop where
  tolerance : config.tolerance = some 0
  limited : ∃ limit : Nat, config.maxStrength = .integer limit
  weights : ∀ strength, ∃ w, config.weights strength = some w ∧ 0 < w

variable {config : Config Rat}

theorem Exact.weight_pos (settings : config.Exact) (priority : Priority) (w : Rat)
    (found : config.weight? priority = some w) : 0 < w := by
  cases priority with
  | required => cases found
  | optional strength =>
      obtain ⟨own, weighs, positive⟩ := settings.weights (min strength config.limit)
      rw [weight?, weighs] at found
      exact Option.some.inj found ▸ positive

theorem Exact.weight_eq_none_iff (settings : config.Exact) {priority : Priority} :
    config.weight? priority = none ↔ priority = .required := by
  cases priority with
  | required => simp [weight?]
  | optional strength =>
      obtain ⟨own, weighs, -⟩ := settings.weights (min strength config.limit)
      simp [weight?, weighs]

end Config

namespace Solver

open Tableau

variable {posed : List Posed} {p : Posed} {s s' : Solver Rat} {c : Constraint Rat}
  {config : Config Rat}

/-! ### Weights -/

/-- The weight of a constraint is found by the settings. -/
theorem run_price_of_exact (settings : s.config.Exact) (c : Constraint Rat) :
    (price c).run s = (.ok (s.config.weight? c.priority), s) := by
  obtain ⟨limit, limited⟩ := settings.limited
  cases priority : c.priority with
  | required => exact price_required priority
  | optional strength =>
      obtain ⟨w, weighs, -⟩ := settings.weights (min strength s.config.limit)
      have limit_eq : s.config.limit = limit := by
        rw [Config.limit, limited]
        rfl
      have clamped : (Step.clamp (.optional strength) s.config.maxStrength :
          Step Rat (Solver Rat) Priority).run s =
            (.ok (.optional (min strength limit)), s) := by
        have most : (Literal.integer limit).count? = some (.integer limit) := rfl
        rw [limited, Step.clamp, most]
        dsimp only
        by_cases small : strength ≤ limit
        · have within : (Numeral.integer strength).atMost (.integer limit) = true :=
            decide_eq_true (Int.ofNat_le.2 small)
          rw [if_pos within, min_eq_left small]
          rfl
        · have beyond : ¬(Numeral.integer strength).atMost (.integer limit) = true := fun within =>
            small (Int.ofNat_le.1 (of_decide_eq_true within))
          rw [if_neg beyond, min_eq_right (not_le.1 small).le]
          rfl
      rw [← limit_eq] at clamped
      rw [price, admittedPriority, Step.run_bind_assoc, Step.run_bind_get, priority,
        Step.run_bind_of_ok clamped, weightOf, Step.run_bind_get, weighs, Config.weight?, weighs]
      rfl

/-! ### New solvers -/

theorem settled_founded (logged : Bool) :
    (Simplex.founded Problem.trivial.objective logged).Settled [] where
  carries := ⟨0, (Simplex.carries_founded _ logged).congr fun σ => by
    simp [costs, Problem.trivial, LinExpr.eval]⟩
  registered _ := rfl
  shaped := founded_shaped _ logged
  optimized goal found c pivotable := by
    have same : Problem.trivial.objective.purgedRow = goal := by
      change (Tableau.founded _ logged).rows.get? .objective = _ at found
      rw [get?_founded, if_pos rfl] at found
      exact Option.some.inj found
    refine (by_contra fun below => ?_ : goal.coefficient c = 0).ge
    have external := Problem.trivial.objective.foundation_purgedRow.external c
      (same ▸ Row.contains_of_coefficient below)
    rw [Column.not_pivotable_of_external external] at pivotable
    cases pivotable
  recorded := founded_recorded _ logged
  done := rfl

/-- A solver is created at rest. -/
theorem rests_create (tolerance : config.tolerance = some 0) : (create config).Rests [] := by
  have same : (create config).simplex = Simplex.founded Problem.trivial.objective config.logged := by
    have ran := Simplex.run_install (Problem.trivial (K := Rat)) config.logged
    rw [create, tolerance]
    exact (congrArg Prod.snd ran).trans rfl
  refine ⟨⟨same ▸ (settled_founded _).toPriced, fun _ => rfl⟩, same ▸ settled_founded _,
    fun _ member => absurd member List.not_mem_nil⟩

/-! ### Solvers at rest -/

/-- A constraint that is installed already is refused. -/
theorem run_add_of_has (known : s.has c = true) :
    (add c).run s = (.error (.constraintExists c), s) := by
  rw [add, Step.run_bind_get, if_pos known]
  rfl

theorem run_add_of_new (new : s.has c = false) :
    (add c).run s = ((install c).run s).map (·.map fun _ => ()) id := by
  rw [add, Step.run_bind_get, new, if_neg Bool.false_ne_true]
  generalize ran : (install c).run s = ended
  obtain ⟨answer, s'⟩ := ended
  cases answer with
  | ok m => exact Step.run_bind_of_ok ran
  | error fault => exact Step.run_bind_of_error ran

theorem run_readValues {goal : Row Rat} (found : s.simplex.tableau.rows.get? .objective = some goal) :
    readValues.run s = (.ok s.simplex.values, { s with cached := s.simplex.values }) := by
  have reading := run_onSimplex_of_ok (Simplex.run_evaluate found)
  rw [readValues, Step.run_bind_of_ok reading]
  rfl

theorem Poses.run_readValues (poses : s.Poses posed) :
    readValues.run s = (.ok s.simplex.values, { s with cached := s.simplex.values }) := by
  obtain ⟨goal, found⟩ := poses.priced.stored
  exact Solver.run_readValues found

/-- Where nothing awaits repair, solving optimises and reads the values of the tableau. -/
theorem run_solve_of_optimize (repaired : s.needsRepair = false) {optimum : Simplex Rat}
    (optimized : Simplex.optimize.run s.simplex = (.ok (), optimum)) {goal : Row Rat}
    (found : optimum.tableau.rows.get? .objective = some goal) :
    solve.run s = (.ok optimum.values, { s.withSimplex optimum with cached := optimum.values }) := by
  have calm : ¬s.needsRepair = true := by simp [repaired]
  rw [solve, Step.run_bind_get, if_neg calm, Step.run_bind_of_ok (run_onSimplex_of_ok optimized)]
  exact run_readValues found

/-- Where nothing awaits optimising or repair, solving reads the values of the tableau. -/
theorem Poses.run_solve (poses : s.Poses posed) (done : s.simplex.needsOptimize = false)
    (repaired : s.needsRepair = false) :
    solve.run s = (.ok s.simplex.values, { s with cached := s.simplex.values }) := by
  obtain ⟨goal, found⟩ := poses.priced.stored
  exact run_solve_of_optimize repaired (Simplex.run_optimize_of_not_needed done) found

end Solver

end SoftSimplex
