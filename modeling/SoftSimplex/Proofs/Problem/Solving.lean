import SoftSimplex.Problem.Solve
import SoftSimplex.Proofs.Simplex.Programs

/-!
Solving linear programs.

A solution method decides what it is asked if it says that nothing is admitted, that the objective has no
bound, or what an optimum is, exactly as the case may be (`Decides`). Solving a program over nonnegative
variables decides it (`Problem.decides`).
-/

namespace SoftSimplex

/-- An answer says what is the case: that nothing is admitted, that the objective goes in the direction of
its goal without bound, or what is best. -/
structure Decides {α : Type} (goal : Goal) (admits : α → Prop) (value : α → Rat)
    (read : Solution Rat → α) (answer : Except (Fault Rat) (Solution Rat)) : Prop where
  infeasible : (∃ fault, answer = .error fault ∧ fault.isInfeasible = true) ↔ ¬∃ x, admits x
  unbounded : answer = .error .unbounded ↔
    (∃ x, admits x) ∧ ∀ least, ∃ x, admits x ∧ goal.sign * value x < least
  optimum : (∃ x, admits x) → (∃ least, ∀ x, admits x → least ≤ goal.sign * value x) →
    ∃ solution, answer = .ok solution ∧ admits (read solution) ∧
      solution.objective = value (read solution) ∧
      ∀ x, admits x → goal.sign * value (read solution) ≤ goal.sign * value x

namespace Decides

variable {α : Type} {goal : Goal} {admits : α → Prop} {value : α → Rat} {read : Solution Rat → α}

theorem of_infeasible {fault : Fault Rat} (infeasible : fault.isInfeasible = true)
    (none : ∀ x, ¬admits x) : Decides goal admits value read (.error fault) where
  infeasible := ⟨fun _ ⟨x, admitted⟩ => none x admitted, fun _ => ⟨_, rfl, infeasible⟩⟩
  unbounded := by
    refine ⟨fun same => ?_, fun ⟨⟨x, admitted⟩, _⟩ => absurd admitted (none x)⟩
    cases same
    cases infeasible
  optimum := fun ⟨x, admitted⟩ => absurd admitted (none x)

theorem of_unbounded (below : ∀ least, ∃ x, admits x ∧ goal.sign * value x < least) :
    Decides goal admits value read (.error .unbounded) := by
  obtain ⟨x₀, admitted₀, -⟩ := below 0
  refine ⟨⟨fun ⟨fault, same, infeasible⟩ => ?_, fun none => absurd ⟨x₀, admitted₀⟩ none⟩,
    ⟨fun _ => ⟨⟨x₀, admitted₀⟩, below⟩, fun _ => rfl⟩, fun _ ⟨least, bound⟩ => ?_⟩
  · cases same
    cases infeasible
  · obtain ⟨x, admitted, low⟩ := below least
    exact absurd (bound x admitted) (not_le.2 low)

theorem of_optimum {solution : Solution Rat} (admitted : admits (read solution))
    (objective : solution.objective = value (read solution))
    (least : ∀ x, admits x → goal.sign * value (read solution) ≤ goal.sign * value x) :
    Decides goal admits value read (.ok solution) := by
  refine ⟨⟨fun ⟨_, same, _⟩ => (by cases same), fun none => absurd ⟨_, admitted⟩ none⟩,
    ⟨fun same => (by cases same), fun ⟨_, below⟩ => ?_⟩,
    fun _ _ => ⟨solution, rfl, admitted, objective, least⟩⟩
  obtain ⟨x, other, low⟩ := below (goal.sign * value (read solution))
  exact absurd (least x other) (not_le.2 low)

end Decides

variable {problem : Problem Rat} {x y : Variable → Rat}

/-! ### What matters to a program -/

/-- Two expressions differ by what their variables that do not cancel make up. -/
theorem LinExpr.eval_sub_congr {left right : LinExpr Rat}
    (same : ∀ v, left.net v ≠ right.net v → x v = y v) :
    left.eval x - right.eval x = left.eval y - right.eval y := by
  have difference (z : Variable → Rat) :
      (Row.accumulate [(1, left), (-1, right)] (Row.ofConstant 0)).eval (completion [] z) =
        left.eval z - right.eval z := by
    rw [Row.eval_accumulate, Row.eval_ofConstant, Family.onVariables_completion]
    simp only [List.map_cons, List.map_nil, List.sum_cons, List.sum_nil]
    ring
  rw [← difference, ← difference]
  refine Row.eval_congr fun c nonzero => ?_
  cases c with
  | external v =>
      refine same v fun cancel => nonzero ?_
      rw [Row.coefficient_accumulate, Row.coefficient_ofConstant]
      simp only [List.map_cons, List.map_nil, List.sum_cons, List.sum_nil, cancel]
      ring
  | symbol s => rfl

theorem Constraint.holds_congr {c : Constraint Rat}
    (same : c.left.eval x - c.right.eval x = c.left.eval y - c.right.eval y) :
    c.Holds x ↔ c.Holds y := by
  unfold Constraint.Holds
  cases c.comparator <;> constructor <;> intro holds <;> linarith

namespace Problem

section

variable (same : ∀ v, problem.Names v → x v = y v)
include same

/-- Only the variables that a program names matter to it. -/
theorem admits_congr : problem.Admits x ↔ problem.Admits y := by
  refine and_congr (forall₂_congr fun c member => Constraint.holds_congr
    (LinExpr.eval_sub_congr fun v different => same v (.inr ⟨c, member, different⟩)))
    (forall₂_congr fun v names => ?_)
  rw [same v names]

theorem value_congr :
    problem.objective.expression.eval x = problem.objective.expression.eval y := by
  have difference : problem.objective.expression.eval x - (LinExpr.constant 0).eval x = _ :=
    LinExpr.eval_sub_congr fun v nonzero => same v (.inl nonzero)
  simpa [LinExpr.eval] using difference

end

/-- Where building a program comes to what it asks for, solving it finds that nothing meets that, or goes
on from the solver that was built. -/
theorem solve_of_extending {request : Simplex.Request}
    (extending : Simplex.Extending (fun σ => problem.cost (onVariables σ)) request
      (Simplex.founded problem.objective false) []
      ((Simplex.install problem).run (.empty (some 0) problem.objective.goal false))) :
    (∃ fault, problem.solve 0 = .error fault ∧ fault.isInfeasible = true ∧
        ∀ x, ¬request.asked x) ∨
      ∃ s posed, Simplex.Extends (fun σ => problem.cost (onVariables σ)) request
        (Simplex.founded problem.objective false) [] s posed ∧
          problem.solve 0 = (Simplex.solve.run s).1 := by
  generalize ran : (Simplex.install problem).run
    (.empty (some 0) problem.objective.goal false) = ended at extending
  have result : (Simplex.ofProblem (some 0) problem).result = ended.1 := congrArg Prod.fst ran
  have state : (Simplex.ofProblem (some 0) problem).state = ended.2 := congrArg Prod.snd ran
  rw [solve, result, state]
  cases extending with
  | @refused fault _ infeasible contradicts =>
      exact .inl ⟨fault, rfl, infeasible, fun x asked =>
        contradicts x (fun _ member => absurd member List.not_mem_nil) asked⟩
  | @extended s posed extends' => exact .inr ⟨s, posed, extends', rfl⟩

/-- Solving a program over nonnegative variables comes to what the program is. -/
theorem solving (standard : problem.Standard) : Simplex.Solving problem (problem.solve 0) := by
  obtain ⟨fault, answer, infeasible, none⟩ | ⟨s, posed, extends', answer⟩ :=
    solve_of_extending (Simplex.extending_install standard false)
  · rw [answer]
    exact .infeasible infeasible none
  · rw [answer]
    exact Simplex.solving_of_extends extends'

/-- Solving a program over nonnegative variables decides it. -/
theorem decides (standard : problem.Standard) :
    Decides problem.objective.goal problem.Admits (fun x => problem.objective.expression.eval x)
      (fun solution => solution.values.value) (problem.solve 0) := by
  have solving := problem.solving standard
  generalize problem.solve 0 = answer at solving
  cases solving with
  | infeasible infeasible none => exact .of_infeasible infeasible none
  | unbounded below => exact .of_unbounded below
  | solved admits nonneg value least => exact .of_optimum admits value least

/-- No value that a solution is read with is negative. -/
theorem nonneg_of_solve (standard : problem.Standard) {solution : Solution Rat}
    (solved : problem.solve 0 = .ok solution) (v : Variable) : 0 ≤ solution.values.value v := by
  have solving := problem.solving standard
  rw [solved] at solving
  cases solving with
  | solved _ nonneg _ _ => exact nonneg v

end Problem

/-! ### Other views of a program -/

/-- What decides a program decides every view of it: what the view admits are the images of admitted
assignments of a kind, at the same values, and for every assignment there is one of that kind. -/
theorem Decides.view {α β : Type} {goal : Goal} {admits : α → Prop} {value : α → Rat}
    {read : Solution Rat → α} {answer : Except (Fault Rat) (Solution Rat)}
    (decides : Decides goal admits value read answer) {admits' : β → Prop} {value' : β → Rat}
    {kind : α → Prop} {image : α → β}
    (shown : ∀ x, kind x → (admits x ↔ admits' (image x)) ∧ value x = value' (image x))
    (replaced : ∀ x, admits x → ∃ y, kind y ∧ admits y ∧ value y = value x)
    (reached : ∀ y, admits' y → ∃ x, kind x ∧ image x = y)
    (kinds : ∀ solution, answer = .ok solution → kind (read solution)) :
    Decides goal admits' value' (fun solution => image (read solution)) answer := by
  have into (x : α) (own : admits x) : ∃ y, admits' y ∧ value' y = value x := by
    obtain ⟨y, isKind, admitted, same⟩ := replaced x own
    obtain ⟨iff, value_eq⟩ := shown y isKind
    exact ⟨image y, iff.1 admitted, value_eq.symm.trans same⟩
  have back (y : β) (own : admits' y) : ∃ x, admits x ∧ value x = value' y := by
    obtain ⟨x, isKind, rfl⟩ := reached y own
    obtain ⟨iff, value_eq⟩ := shown x isKind
    exact ⟨x, iff.2 own, value_eq⟩
  have exist : (∃ x, admits x) ↔ ∃ y, admits' y :=
    ⟨fun ⟨x, own⟩ => (into x own).imp fun _ => And.left,
      fun ⟨y, own⟩ => (back y own).imp fun _ => And.left⟩
  refine ⟨decides.infeasible.trans (not_congr exist), ?_, fun some bounded => ?_⟩
  · rw [decides.unbounded, exist]
    refine and_congr_right fun _ => forall_congr' fun least => ?_
    constructor
    · rintro ⟨x, own, low⟩
      obtain ⟨y, admitted, same⟩ := into x own
      exact ⟨y, admitted, same ▸ low⟩
    · rintro ⟨y, own, low⟩
      obtain ⟨x, admitted, same⟩ := back y own
      exact ⟨x, admitted, same ▸ low⟩
  · obtain ⟨least, bound⟩ := bounded
    obtain ⟨solution, answered, admitted, objective, best⟩ := decides.optimum (exist.2 some)
      ⟨least, fun x own => by
        obtain ⟨y, admitted, same⟩ := into x own
        exact same ▸ bound y admitted⟩
    obtain ⟨iff, value_eq⟩ := shown _ (kinds solution answered)
    refine ⟨solution, answered, iff.1 admitted, objective.trans value_eq, fun y own => ?_⟩
    obtain ⟨x, other, same⟩ := back y own
    rw [← value_eq, ← same]
    exact best x other

end SoftSimplex
