import SoftSimplex.Proofs.Solver.Marking

/-!
Adding constraints of any priority.

A solver poses the constraints that are installed if its inner solver prices them (`Poses`), and is at
rest if the inner solver is settled (`Rests`). Whatever state a solver is in, a constraint that it answers
for has joined the family; at rest it refuses only a required constraint that contradicts the required
ones of the family, and comes to rest again otherwise. Where the inner solver is poised, a constraint whose
sides are equal at the current values joins the family without moving anything (`installing`).
-/

namespace SoftSimplex

open Tableau

variable {posed : List Posed} {p : Posed} {x : Variable → Rat}

theorem costs_cons (p : Posed) (posed : List Posed) (σ : Column → Rat) :
    costs (p :: posed) σ = p.cost σ + costs posed σ := by
  rw [costs, List.map_cons, List.sum_cons, costs]

theorem Posed.gap_eq_zero (unmoved : p.shift = 0)
    (balanced : p.constraint.left.eval x = p.constraint.right.eval x) : p.gap x = 0 := by
  rw [gap, unmoved, balanced, sub_self, mul_zero, add_zero]

theorem Weighted.cons (weighted : Weighted posed) (own : ∀ w, p.markers.weight = some w → 0 ≤ w) :
    Weighted (p :: posed) :=
  List.forall_mem_cons.2 ⟨own, weighted⟩

namespace Simplex

variable {s s' inner optimum : Simplex Rat} {k : Rat}

/-- The cost of one more constraint joins those of the family. -/
theorem Carries.costs_cons (carries : s.Carries (p :: posed) fun σ => (k + costs posed σ) + p.cost σ) :
    s.Carries (p :: posed) fun σ => k + costs (p :: posed) σ :=
  carries.congr fun σ => by rw [SoftSimplex.costs_cons, add_left_comm, add_comm]

/-- A solver that carries one more constraint prices it, once its marker is registered. -/
theorem Priced.register (priced : s.Priced posed) (keeps : s.Keeps s')
    (carries : s'.Carries (p :: posed) fun σ => (k + costs posed σ) + p.cost σ) :
    (s'.register p.constraint p.markers.main).Priced (p :: posed) where
  carries :=
    have joined := carries.costs_cons
    ⟨k, joined.represents, joined.family, joined.fresh, joined.below⟩
  registered tag := by
    rw [Simplex.register, Sorted.Map.get?_insert, find?_cons_tag, keeps.registered,
      priced.registered]
    split <;> rfl

/-- A constraint that costs nothing where a poised solver stands costs no less at the optimum that it
joins. -/
theorem Poised.costs_le_cons (poised : s.Poised posed) (fits : p.Fits) (weighted : Weighted (p :: posed))
    (unused : ∀ c ∈ p.columns, s.tableau.rows.get? c = none) (retains : s.tableau.Retains inner.tableau)
    (still : ∀ c, c.isObjective = false →
      inner.tableau.basicSolution c = s.tableau.basicSolution c)
    (optimal : optimum.Poised (p :: posed)) (retained : inner.tableau.Retains optimum.tableau) :
    costs (p :: posed) inner.tableau.basicSolution ≤
      costs (p :: posed) optimum.tableau.basicSolution := by
  have plain {q : Posed} (fits : q.Fits) {c : Column} (own : c ∈ q.columns) : c.isObjective = false :=
    Column.not_objective_of_restricted (Markers.Fits.restricted fits own)
  have free : p.cost inner.tableau.basicSolution = 0 := by
    refine mul_eq_zero_of_right _ (List.sum_eq_zero fun value listed => ?_)
    obtain ⟨c, error, rfl⟩ := List.mem_map.1 listed
    have own := Markers.Fits.errors_subset fits error
    rw [still c (plain fits own), basicSolution_of_not_basic (unused c own)]
  have before : costs posed inner.tableau.basicSolution = costs posed s.tableau.basicSolution :=
    poised.family.costs_congr fun q member c own => still c (plain (poised.family.fits q member) own)
  have least := poised.least (List.forall_mem_cons.1 weighted).2
    (fun q member => optimal.equation (List.mem_cons_of_mem _ member)) optimal.steady.feasible
    fun c dummy outside =>
      ((retains.trans retained).dummies c dummy).trans (basicSolution_of_not_basic outside)
  rw [costs_cons, costs_cons, free, before]
  exact add_le_add (Posed.cost_nonneg fits (List.forall_mem_cons.1 weighted).1 optimal.steady.feasible)
    least

end Simplex

namespace Solver

variable {s s' : Solver Rat} {c : Constraint Rat} {weight : Option Rat}

/-- The constraints of a solver are installed, and the inner solver prices them. -/
structure Poses (s : Solver Rat) (posed : List Posed) : Prop where
  priced : s.simplex.Priced posed
  installed : ∀ tag, s.installed.get? tag =
    (posed.find? fun p => p.constraint.tag = tag).map (·.toInstalled)

/-- The inner solver is settled. -/
structure Rests (s : Solver Rat) (posed : List Posed) : Prop extends s.Poses posed where
  settled : s.simplex.Settled posed
  weighted : Weighted posed

theorem Rests.exists_meetsRequired (rests : s.Rests posed) : ∃ x, MeetsRequired posed x :=
  ⟨_, (rests.settled.optimal rests.weighted).1⟩

theorem Poses.installed_of_mem (poses : s.Poses posed) (member : p ∈ posed) :
    s.installed.get? p.constraint.tag = some p.toInstalled := by
  rw [poses.installed, poses.priced.family.find?_tag member]
  rfl

theorem Poses.not_installed (poses : s.Poses posed) {tag : Tag}
    (new : ∀ q ∈ posed, q.constraint.tag ≠ tag) : s.installed.get? tag = none := by
  rw [poses.installed, List.find?_eq_none.2 fun q member => by simpa using new q member]
  rfl

theorem Poses.has_iff (poses : s.Poses posed) :
    s.has c = true ↔ ∃ q ∈ posed, q.constraint.tag = c.tag := by
  rw [has, Sorted.Map.contains, poses.installed, Option.isSome_map, List.find?_isSome]
  simp only [decide_eq_true_eq]

/-! ### Runs of `install` -/

/-- The solver that has one more constraint installed. -/
def withInstalled (s : Solver Rat) (c : Constraint Rat) (m : Markers Rat) (simplex : Simplex Rat) :
    Solver Rat :=
  { s with simplex, installed := s.installed.insert c.tag ⟨c, m⟩ }

section

variable {s₁ : Solver Rat} {m : Markers Rat} {row : Row Rat} {inner optimum : Simplex Rat}
  {fault : Fault Rat} (marking : (markedRow c).run s = (.ok (row, m), s₁))
include marking

theorem run_install_of_refused
    (refused : (Simplex.insertRow row m.columns).run s₁.simplex = (.error fault, inner)) :
    (install c).run s = (.error fault, s₁.withSimplex inner) := by
  rw [install, Step.run_bind_report, Step.run_bind_of_ok marking]
  exact Step.run_bind_of_error (run_onSimplex_of_error refused)

variable (inserted : (Simplex.insertRow row m.columns).run s₁.simplex = (.ok (), inner))
include inserted

theorem run_install_of_error
    (failed : Simplex.optimize.run (inner.register c m.main) = (.error fault, optimum)) :
    (install c).run s = (.error fault, s₁.withInstalled c m optimum) := by
  rw [install, Step.run_bind_report, Step.run_bind_of_ok marking]
  dsimp only
  rw [Step.run_bind_of_ok (run_onSimplex_of_ok inserted), Step.run_bind_modify]
  exact Step.run_bind_of_error (run_onSimplex_of_error failed)

theorem run_install_of_ok
    (optimized : Simplex.optimize.run (inner.register c m.main) = (.ok (), optimum)) :
    (install c).run s = (.ok m, s₁.withInstalled c m optimum) := by
  rw [install, Step.run_bind_report, Step.run_bind_of_ok marking]
  dsimp only
  rw [Step.run_bind_of_ok (run_onSimplex_of_ok inserted), Step.run_bind_modify]
  have optimizing : (onSimplex Simplex.optimize).run
      (s₁.withInstalled c m (inner.register c m.main)) =
        (.ok (), s₁.withInstalled c m optimum) := run_onSimplex_of_ok optimized
  exact (Step.run_bind_of_ok optimizing).trans
    (Step.run_bind_of_ok (run_onSimplex_of_ok (Simplex.run_snapshot _ _)))

end

/-! ### The family of what is installed -/

theorem Poses.withInstalled {s₁ : Solver Rat} {m : Markers Rat} {simplex : Simplex Rat}
    (poses : s.Poses posed) (same : s₁.installed = s.installed)
    (priced : simplex.Priced (⟨⟨c, m⟩, 0⟩ :: posed)) :
    (s₁.withInstalled c m simplex).Poses (⟨⟨c, m⟩, 0⟩ :: posed) where
  priced := priced
  installed tag := by
    rw [find?_cons_tag, Solver.withInstalled, Sorted.Map.get?_insert, same, poses.installed]
    split <;> rfl

/-- The values of the tableau are those of its basic solution. -/
theorem currentValue_eq (s : Solver Rat) : s.currentValue = onVariables s.tableau.basicSolution := by
  funext v
  rw [currentValue, onVariables]
  cases found : s.tableau.rows.get? (.external v) with
  | none => rw [basicSolution_of_not_basic found, Option.map_none, Option.getD_none]
  | some row => rw [basicSolution_of_basic found, Option.map_some, Option.getD_some]

/-- What installing a constraint of a weight may come to. -/
inductive Installing (s : Solver Rat) (posed : List Posed) (c : Constraint Rat)
    (weight : Option Rat) : Except (Fault Rat) (Markers Rat) × Solver Rat → Prop where
  | installed {m : Markers Rat} {s' : Solver Rat} (weighs : m.weight = weight)
      (aside : s.Aside s') (poses : s'.Poses (⟨⟨c, m⟩, 0⟩ :: posed))
      (sustains : Weighted (⟨⟨c, m⟩, 0⟩ :: posed) →
        s.simplex.Sustains posed s'.simplex (⟨⟨c, m⟩, 0⟩ :: posed))
      (still : Weighted (⟨⟨c, m⟩, 0⟩ :: posed) → s.simplex.Poised posed →
        c.left.eval s.currentValue = c.right.eval s.currentValue → s'.currentValue = s.currentValue) :
      Installing s posed c weight (.ok m, s')
  | refused {fault : Fault Rat} {s' : Solver Rat}
      (missed : Weighted posed → (∀ w, weight = some w → 0 ≤ w) → s.simplex.Poised posed →
        c.left.eval s.currentValue ≠ c.right.eval s.currentValue)
      (reason : s.Rests posed → (∀ w, weight = some w → 0 ≤ w) → fault.isInfeasible = true ∧
        weight = none ∧ ∀ x, MeetsRequired posed x → ¬c.Holds x) :
      Installing s posed c weight (.error fault, s')

/-- What meets the required constraints of a family meets a new one, if it is optional or holds. -/
theorem meetsRequired_cons_of_holds {m : Markers Rat} (meets : MeetsRequired posed x)
    (own : m.weight = none → c.Holds x) : MeetsRequired (⟨⟨c, m⟩, 0⟩ :: posed) x :=
  List.forall_mem_cons.2 ⟨fun required => (Posed.met_of_unmoved rfl x).2 (own required), meets⟩

/-- A constraint that nothing meets beside a family is required, and fails wherever the family is met. -/
theorem required_of_contradicts {m : Markers Rat}
    (contradicts : ∀ x, ¬MeetsRequired (⟨⟨c, m⟩, 0⟩ :: posed) x) (meets : MeetsRequired posed x) :
    m.weight = none ∧ ¬c.Holds x :=
  Classical.not_imp.1 fun own => contradicts x (meetsRequired_cons_of_holds meets own)

/-- An answer says that the constraint was installed, and a fault of a solver at rest that it
contradicts the required constraints. -/
theorem Poses.installing (poses : s.Poses posed) (new : ∀ q ∈ posed, q.constraint.tag ≠ c.tag)
    (priced : (price c).run s = (.ok weight, s)) :
    Installing s posed c weight ((install c).run s) := by
  obtain ⟨k, carries⟩ := poses.priced.carries
  obtain ⟨m, s₁, marking, marked⟩ :=
    marked_markedRow poses.priced.exact.toWellFormed carries.represents.stored priced
  have weighs := marked.weight
  have posing := carries.posing (p := ⟨⟨c, m⟩, 0⟩) marked.fits rfl new marked.prepared
  have balanced (equal : c.left.eval s.currentValue = c.right.eval s.currentValue) :
      (⟨⟨c, m⟩, 0⟩ : Posed).gap (onVariables s.simplex.tableau.basicSolution) = 0 := by
    rw [currentValue_eq] at equal
    exact Posed.gap_eq_zero rfl equal
  generalize ran : (Simplex.insertRow (s.freshRow c m) m.columns).run s₁.simplex = ended
  change Simplex.Posing _ _ _ _ _ ((Simplex.insertRow (s.freshRow c m) m.columns).run s₁.simplex)
    at posing
  rw [ran] at posing
  cases posing with
  | refused missed reason =>
      rw [run_install_of_refused marking ran]
      refine .refused (fun _ _ poised equal => missed poised.steady.feasible (balanced equal))
        fun rests nonneg => ?_
      obtain ⟨infeasible, contradicts⟩ := reason rests.settled.shaped
      obtain ⟨x₀, meets₀⟩ := rests.exists_meetsRequired
      exact ⟨infeasible, weighs.symm.trans (required_of_contradicts contradicts meets₀).1,
        fun x meets => (required_of_contradicts contradicts meets).2⟩
  | @posed inner keeps needed carries' inserted retains still recorded =>
      have registered := poses.priced.register keeps carries'
      have poising (weighted : Weighted (⟨⟨c, m⟩, 0⟩ :: posed)) (poised : s.simplex.Poised posed) :=
        registered.poise weighted (retains poised.steady).toSteady (recorded poised.recorded) needed
      generalize optimized : Simplex.optimize.run (inner.register c m.main) = last at poising
      obtain ⟨answer, optimum⟩ := last
      cases answer with
      | error fault =>
          have failing (weighted : Weighted posed) (nonneg : ∀ w, weight = some w → 0 ≤ w) :
              ¬s.simplex.Poised posed := fun poised => by
            obtain ⟨s', answered, -⟩ :=
              poising (weighted.cons fun w own => nonneg w (weighs.symm.trans own)) poised
            cases answered
          rw [run_install_of_error marking ran optimized]
          exact .refused (fun weighted nonneg poised => absurd poised (failing weighted nonneg))
            fun rests nonneg => absurd rests.settled.poised (failing rests.weighted nonneg)
      | ok answer =>
          rw [run_install_of_ok marking ran optimized]
          obtain ⟨turned, -⟩ := Simplex.turns_of_optimize registered.exact rfl optimized
          refine .installed weighs ⟨marked.same.config, marked.same.sessions,
            marked.same.needsRepair, turned.nextMade.trans keeps.nextMade⟩
            (poses.withInstalled marked.same.installed (registered.turned turned))
            (fun weighted poised => ?_) fun weighted poised equal => ?_
          · obtain ⟨s', answered, poised', retained, -⟩ := poising weighted poised
            obtain ⟨-, rfl⟩ := Prod.mk.inj answered
            exact ⟨poised', fun shaped => retained.shaped ((retains poised.steady).shaped shaped)⟩
          · obtain ⟨s', answered, poised', retained, unmoved⟩ := poising weighted poised
            obtain ⟨-, rfl⟩ := Prod.mk.inj answered
            have plain := still poised.steady.feasible (balanced equal)
            have same := unmoved (poised.costs_le_cons marked.fits weighted
              (fun c own => not_basic_of_not_mem_scope (marked.prepared.not_mem_scope carries c own))
              (retains poised.steady) plain poised' retained)
            rw [currentValue_eq, currentValue_eq]
            exact funext fun v => (congrFun same (.external v)).trans (plain (.external v) rfl)

end Solver

end SoftSimplex
