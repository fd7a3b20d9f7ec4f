import SoftSimplex.Proofs.Simplex.Reading

/-!
Solvers at rest.

A solver prices its constraints if their errors cost their weights in the objective (`Priced`), and is
settled if moreover its tableau is shaped and optimal (`Settled`). The values of a settled solver meet the
required constraints and miss the others as little as possible (`Settled.optimal`). Where dummies are away
from zero a solver may still be `Poised`: then nothing costs less while the dummies stay where they are
(`Poised.least`).
-/

namespace SoftSimplex.Simplex

open Tableau

variable {s s' : Simplex Rat} {posed : List Posed} {p : Posed} {x : Variable → Rat}

/-- The constraints of a solver are marked by their main columns, and their errors cost their
weights. -/
structure Priced (s : Simplex Rat) (posed : List Posed) : Prop where
  carries : ∃ k, s.Carries posed fun σ => k + costs posed σ
  registered : ∀ tag, s.registered.get? tag =
    (posed.find? fun p => p.constraint.tag = tag).map fun p => ⟨p.constraint, p.markers.main⟩

/-- The tableau of a solver is shaped and optimal. -/
structure Settled (s : Simplex Rat) (posed : List Posed) : Prop extends s.Priced posed where
  shaped : s.tableau.Shaped
  optimized : s.tableau.Optimized
  recorded : s.tableau.Recorded
  done : s.needsOptimize = false

/-- The tableau of a solver is steady and optimal. -/
structure Poised (s : Simplex Rat) (posed : List Posed) : Prop extends s.Priced posed where
  steady : s.tableau.Steady
  optimized : s.tableau.Optimized
  recorded : s.tableau.Recorded
  done : s.needsOptimize = false

section

variable {k : Rat} (carries : s.Carries posed fun σ => k + costs posed σ) (weighted : Weighted posed)
include carries

/-- The objective is what the constraints cost. -/
theorem Carries.objective_eq : s.tableau.basicSolution .objective =
    k + costs posed s.tableau.basicSolution :=
  ((carries.represents.holds _).1 carries.represents.holds_basicSolution).2

/-- Optimising moves nothing, if what the constraints cost does not come down. -/
theorem Carries.still (turned : s.Turned s') (lowers : s.tableau.Lowers .objective s'.tableau)
    (least : costs posed s.tableau.basicSolution ≤ costs posed s'.tableau.basicSolution) :
    s'.tableau.basicSolution = s.tableau.basicSolution := by
  refine lowers.basicSolution_eq ?_
  rw [carries.objective_eq, (carries.turns turned.turns turned.serial).objective_eq]
  exact add_le_add_right least k

include weighted

/-- Optimising a steady tableau whose objective is what constraints cost comes to an optimal one. -/
theorem Carries.poise (steady : s.tableau.Steady) (needed : s.needsOptimize = true) :
    ∃ s', optimize.run s = (.ok (), s') ∧ s.Turned s' ∧ s.tableau.Retains s'.tableau ∧
      s.tableau.Lowers .objective s'.tableau ∧ s'.tableau.Optimized ∧ s'.needsOptimize = false := by
  have exact := carries.represents.toExact
  obtain ⟨t', ran, turns, feasible, lowers, optimized⟩ := run_optimize_of_bounded exact needed
    steady.feasible carries.represents.stored (carries.represents.bounded carries.family weighted)
  exact ⟨s.optimized t', ran, ⟨rfl, rfl, rfl, rfl, turns⟩, steady.turns exact turns feasible, lowers,
    optimized, rfl⟩

/-- If the tableau is shaped, it stays so. -/
theorem Carries.settle (shaped : s.tableau.Shaped) (needed : s.needsOptimize = true) :
    ∃ s', optimize.run s = (.ok (), s') ∧ s.Turned s' ∧
      (s'.Carries posed fun σ => k + costs posed σ) ∧ s'.tableau.Shaped ∧ s'.tableau.Optimized ∧
        s'.needsOptimize = false := by
  obtain ⟨s', ran, turned, retains, -, optimized, done⟩ := carries.poise weighted shaped.steady needed
  exact ⟨s', ran, turned, carries.turns turned.turns turned.serial, retains.shaped shaped, optimized,
    done⟩

end

namespace Priced

variable (priced : s.Priced posed)
include priced

theorem exact : s.tableau.Exact := by
  obtain ⟨k, carries⟩ := priced.carries
  exact carries.represents.toExact

theorem family : Family posed := by
  obtain ⟨k, carries⟩ := priced.carries
  exact carries.family

theorem stored : ∃ goal, s.tableau.rows.get? .objective = some goal := by
  obtain ⟨k, carries⟩ := priced.carries
  exact Option.isSome_iff_exists.1 carries.represents.stored

/-- The basic solution satisfies every row. -/
theorem equation (member : p ∈ posed) : p.Equation s.tableau.basicSolution := by
  obtain ⟨k, carries⟩ := priced.carries
  exact carries.represents.equation member

theorem registered_of_mem (member : p ∈ posed) :
    s.registered.get? p.constraint.tag = some ⟨p.constraint, p.markers.main⟩ := by
  rw [priced.registered, priced.family.find?_tag member]
  rfl

/-- The values that are read are those of the basic solution. -/
theorem value_eq : s.values.value = onVariables s.tableau.basicSolution :=
  funext fun v => value_values priced.exact.toWellFormed v

theorem turned (turned : s.Turned s') : s'.Priced posed where
  carries := by
    obtain ⟨k, carries⟩ := priced.carries
    exact ⟨k, carries.turns turned.turns turned.serial⟩
  registered := by
    rw [turned.registered]
    exact priced.registered

/-- What awaits repair has no part in what a solver prices. -/
theorem awaiting (rest : Sorted.Set Column) :
    (s.withTableau (s.tableau.awaiting rest)).Priced posed := by
  obtain ⟨k, carries⟩ := priced.carries
  exact ⟨⟨k, carries.represents.awaiting rest, carries.family, carries.fresh, carries.below⟩,
    priced.registered⟩

theorem withTurns {t' : Tableau Rat} (turns : s.tableau.Turns t') :
    (s.withTableau t').Priced posed :=
  priced.turned ⟨rfl, rfl, rfl, rfl, turns⟩

/-- Optimising poises a solver whose tableau is steady. It leaves the dummies where they are, and moves
nothing if what the constraints cost does not come down. -/
theorem poise (weighted : Weighted posed) (steady : s.tableau.Steady) (recorded : s.tableau.Recorded)
    (needed : s.needsOptimize = true) : ∃ s', optimize.run s = (.ok (), s') ∧ s'.Poised posed ∧
      s.tableau.Retains s'.tableau ∧
      (costs posed s.tableau.basicSolution ≤ costs posed s'.tableau.basicSolution →
        s'.tableau.basicSolution = s.tableau.basicSolution) := by
  obtain ⟨k, carries⟩ := priced.carries
  obtain ⟨s', ran, turned, retains, lowers, optimized, done⟩ := carries.poise weighted steady needed
  exact ⟨s', ran, ⟨priced.turned turned, retains.toSteady, optimized,
    turned.turns.recorded carries.represents.toExact recorded, done⟩, retains,
    carries.still turned lowers⟩

end Priced

/-! ### Settled solvers -/

/-- The values of a settled solver meet the required constraints, and no assignment that does misses
the others by less. -/
theorem Settled.optimal (settled : s.Settled posed) (weighted : Weighted posed) :
    MeetsRequired posed s.values.value ∧
      ∀ x, MeetsRequired posed x → penalties posed s.values.value ≤ penalties posed x := by
  obtain ⟨k, carries⟩ := settled.carries
  rw [settled.value_eq]
  exact ⟨carries.represents.meetsRequired carries.family settled.shaped, fun x meets =>
    carries.represents.optimal carries.family weighted settled.shaped settled.optimized meets⟩

theorem Settled.run_optimize (settled : s.Settled posed) : optimize.run s = (.ok (), s) :=
  run_optimize_of_not_needed settled.done

/-! ### Poised solvers -/

theorem Settled.poised (settled : s.Settled posed) : s.Poised posed :=
  ⟨settled.toPriced, settled.shaped.steady, settled.optimized, settled.recorded, settled.done⟩

theorem Poised.settled (poised : s.Poised posed) (shaped : s.tableau.Shaped) : s.Settled posed :=
  ⟨poised.toPriced, shaped, poised.optimized, poised.recorded, poised.done⟩

theorem Poised.run_optimize (poised : s.Poised posed) : optimize.run s = (.ok (), s) :=
  run_optimize_of_not_needed poised.done

/-- In a poised solver the constraints cost as little as they can while the dummies outside the basis are
zero. -/
theorem Poised.least (poised : s.Poised posed) (weighted : Weighted posed) {σ : Column → Rat}
    (equations : ∀ p ∈ posed, p.Equation σ) (nonneg : ∀ c, c.isPivotable = true → 0 ≤ σ c)
    (fixed : ∀ c, c.isDummy = true → s.tableau.rows.get? c = none → σ c = 0) :
    costs posed s.tableau.basicSolution ≤ costs posed σ := by
  obtain ⟨k, carries⟩ := poised.carries
  have represents := carries.represents
  obtain ⟨goal, found⟩ := poised.stored
  have holds := represents.holds_withObjectiveOf carries.family equations
  have least : goal.constant ≤ goal.eval (withObjectiveOf (fun σ => k + costs posed σ) σ) := by
    refine represents.constant_le_eval found (poised.optimized goal found)
      (fun c external => mul_eq_zero_of_left (represents.coefficient_external carries.family weighted
        poised.steady found external) _) (fun c pivotable => ?_) fun c dummy outside => ?_
    · rw [withObjectiveOf_of_plain (Column.not_objective_of_pivotable pivotable)]
      exact nonneg c pivotable
    · rw [withObjectiveOf_of_plain (Column.not_objective_of_restricted
        (Column.restricted_of_dummy dummy))]
      exact fixed c dummy outside
  rw [← holds .objective goal found, withObjectiveOf, Function.update_self,
    ← basicSolution_of_basic found, carries.objective_eq] at least
  exact le_of_add_le_add_left least

/-- What a poised solver comes to is poised, and shaped if the solver was. -/
def Sustains (s : Simplex Rat) (posed : List Posed) (s' : Simplex Rat) (posed' : List Posed) : Prop :=
  s.Poised posed → s'.Poised posed' ∧ (s.tableau.Shaped → s'.tableau.Shaped)

namespace Sustains

variable {s'' : Simplex Rat} {posed' posed'' : List Posed}

theorem refl (s : Simplex Rat) (posed : List Posed) : s.Sustains posed s posed :=
  fun poised => ⟨poised, id⟩

theorem trans (first : s.Sustains posed s' posed') (second : s'.Sustains posed' s'' posed'') :
    s.Sustains posed s'' posed'' := fun poised => by
  obtain ⟨poised', shaped⟩ := first poised
  obtain ⟨poised'', shaped'⟩ := second poised'
  exact ⟨poised'', fun before => shaped' (shaped before)⟩

theorem settled (sustains : s.Sustains posed s' posed') (settled : s.Settled posed) :
    s'.Settled posed' := by
  obtain ⟨poised, shaped⟩ := sustains settled.poised
  exact poised.settled (shaped settled.shaped)

end Sustains

end SoftSimplex.Simplex
