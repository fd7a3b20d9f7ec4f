import Mathlib.Algebra.Module.Pi
import SoftSimplex.Proofs.Problem.Solving

/-!
Programs over variables of any sign.

Only slacks enter the basis, so that the method may stop at an objective row that still mentions an unknown
outside the basis. Moving that unknown keeps the constraints satisfied: a whole line of assignments satisfies
them while the objective changes along it, and the program *drifts* (`Problem.Drifts`). Solving decides a
program that does not drift. The objective of one that drifts has no bound, but solving may answer with an
assignment that is best only among those that are zero wherever it is zero (`Problem.unrestricted_spec`).
-/

namespace SoftSimplex

variable {problem : Problem Rat} {x d : Variable → Rat} {v : Variable}

/-- An expression changes along a line in proportion. -/
theorem LinExpr.eval_along (e : LinExpr Rat) (x d : Variable → Rat) (t : Rat) :
    e.eval (x + t • d) = e.eval x + t * (e.eval (x + d) - e.eval x) := by
  induction e with
  | «variable» v =>
      simp only [eval, Pi.add_apply, Pi.smul_apply, smul_eq_mul]
      ring
  | constant _ => simp only [eval, sub_self, mul_zero, add_zero]
  | add left right ihLeft ihRight =>
      rw [eval, ihLeft, ihRight, eval, eval]
      ring
  | scale factor body ih =>
      rw [eval, ih, eval, eval]
      ring

namespace Problem

/-- A program over variables of any sign, with required constraints that its caller tells apart. -/
structure Unrestricted (problem : Problem Rat) : Prop where
  unrestricted : problem.nonnegative = false
  required : ∀ c ∈ problem.constraints, c.priority = .required
  given : ∀ c ∈ problem.constraints, ∃ n, c.tag = .given n
  distinct : (problem.constraints.map (·.tag)).Nodup

/-- An assignment satisfies the constraints. -/
def Satisfied (problem : Problem Rat) (x : Variable → Rat) : Prop :=
  ∀ c ∈ problem.constraints, c.Holds x

/-- A whole line of assignments satisfies the constraints, and the objective changes along it. -/
def Drifts (problem : Problem Rat) : Prop :=
  ∃ x d : Variable → Rat, (∀ t : Rat, problem.Satisfied (x + t • d)) ∧
    problem.objective.expression.eval (x + d) ≠ problem.objective.expression.eval x

theorem cost_along (problem : Problem Rat) (x d : Variable → Rat) (t : Rat) :
    problem.cost (x + t • d) = problem.cost x + t * (problem.cost (x + d) - problem.cost x) := by
  rw [cost, LinExpr.eval_along, cost, cost]
  ring

/-- The objective of a program that drifts has no bound. -/
theorem Drifts.exists_below (drifts : problem.Drifts) (least : Rat) :
    ∃ x, problem.Satisfied x ∧ problem.cost x < least := by
  obtain ⟨x, d, line, changes⟩ := drifts
  have slope : problem.cost (x + d) - problem.cost x ≠ 0 := by
    have sign : (problem.objective.goal.sign : Rat) ≠ 0 := by
      cases problem.objective.goal <;> simp [Goal.sign]
    rw [cost, cost, ← mul_sub]
    exact mul_ne_zero sign (sub_ne_zero.2 changes)
  refine ⟨_, line ((least - problem.cost x - 1) / (problem.cost (x + d) - problem.cost x)), ?_⟩
  rw [cost_along, div_mul_cancel₀ _ slope]
  linarith

end Problem

namespace Tableau

/-- The ray of a column is a line. -/
theorem ray_along (t : Tableau Rat) (entry : Column) (k : Rat) (c : Column) :
    t.ray entry k c = t.basicSolution c + k * (t.ray entry 1 c - t.basicSolution c) := by
  cases found : t.rows.get? c with
  | some row =>
      rw [ray_of_basic found, ray_of_basic found, basicSolution_of_basic found]
      ring
  | none =>
      rw [basicSolution_of_not_basic found]
      by_cases same : c = entry
      · subst same
        rw [ray_self found, ray_self found]
        ring
      · rw [ray_of_not_basic found same, ray_of_not_basic found same]
        ring

end Tableau

namespace Simplex

open Tableau

variable {s : Simplex Rat} {posed : List Posed} {row : Row Rat}

theorem Request.and_nothing (request : Request) : request.and .nothing = request := by
  simp [Request.and, Request.nothing]

/-- Adding the constraints of a program over variables of any sign enrols them, or finds that nothing
satisfies them. -/
theorem extending_install_unrestricted (unrestricted : problem.Unrestricted) (logged : Bool) :
    Extending (fun σ => problem.cost (onVariables σ)) (.ofConstraints problem.constraints)
      (founded problem.objective logged) []
      ((install problem).run (empty (some 0) problem.objective.goal logged)) := by
  have first := (enrolled_founded problem.objective logged).extending_forEach
    (founded_shaped _ logged) (fun _ _ _ member => absurd member List.not_mem_nil)
    unrestricted.distinct unrestricted.required unrestricted.given
  rw [run_install, ← Request.and_nothing (.ofConstraints problem.constraints)]
  refine first.andThen fun s posed extends' => ?_
  simp only [unrestricted.unrestricted, Bool.false_eq_true, if_false]
  exact .extended (extends'.enrolled.extends_self extends'.shaped)

/-- A program whose objective row mentions an unknown drifts. -/
theorem Enrolled.drifts_of_coefficient
    (enrolled : s.Enrolled posed fun σ => problem.cost (onVariables σ)) (shaped : s.tableau.Shaped)
    (satisfied : ∀ x, AllHold posed x → problem.Satisfied x)
    (found : s.tableau.rows.get? .objective = some row)
    (nonzero : row.coefficient (.external v) ≠ 0) : problem.Drifts := by
  have exact := enrolled.exact
  let x := onVariables s.tableau.basicSolution
  let d := onVariables (s.tableau.ray (.external v) 1) - x
  have line (k : Rat) : onVariables (s.tableau.ray (.external v) k) = x + k • d :=
    funext fun w => s.tableau.ray_along (.external v) k (.external w)
  have cost (k : Rat) : problem.cost (x + k • d) = row.constant + row.coefficient (.external v) * k := by
    rw [← line, ← ray_of_basic found]
    exact (((enrolled.carries.represents.holds _).1 (exact.holds_ray (.external v) k)).2).symm
  refine ⟨x, d, fun k => ?_, fun same => nonzero ?_⟩
  · rw [← line]
    exact satisfied _ (enrolled.allHold (exact.holds_ray _ k)
      (shaped.admissible_ray exact.toWellFormed rfl k))
  · have moved : problem.cost (x + d) = problem.cost x := congrArg (problem.objective.goal.sign * ·) same
    have start := cost 0
    have next := cost 1
    rw [zero_smul, add_zero] at start
    rw [one_smul, moved, start] at next
    linarith

end Simplex

namespace Problem

/-- What solving a program over variables of any sign may come to. -/
inductive Answers (problem : Problem Rat) : Except (Fault Rat) (Solution Rat) → Prop where
  | infeasible {fault : Fault Rat} (infeasible : fault.isInfeasible = true)
      (none : ∀ x, ¬problem.Satisfied x) : Answers problem (.error fault)
  | unbounded (below : ∀ least, ∃ x, problem.Satisfied x ∧ problem.cost x < least) :
      Answers problem (.error .unbounded)
  | solved {solution : Solution Rat} (satisfied : problem.Satisfied solution.values.value)
      (objective : solution.objective = problem.objective.expression.eval solution.values.value)
      (still : ∀ x, problem.Satisfied x →
        (∀ v, solution.values.value v = 0 → x v = 0) →
          problem.cost solution.values.value ≤ problem.cost x)
      (least : ¬problem.Drifts → ∀ x, problem.Satisfied x →
        problem.cost solution.values.value ≤ problem.cost x) :
      Answers problem (.ok solution)

/-- What the solution is read from says what a program over variables of any sign comes to. -/
theorem answers_of_reads {s : Simplex Rat} {posed : List Posed}
    {answer : Except (Fault Rat) (Solution Rat)} (reads : Simplex.Reads problem s posed answer)
    (holds : ∀ x, Simplex.AllHold posed x ↔ problem.Satisfied x) : problem.Answers answer := by
  cases reads with
  | unbounded below =>
      refine .unbounded fun least => ?_
      obtain ⟨x, all, low⟩ := below least
      exact ⟨x, (holds x).1 all, low⟩
  | @solved s' row solution turned enrolled shaped found minimal values constant objective =>
      have exact := enrolled.exact
      have outside (v : Variable) (mentioned : row.coefficient (.external v) ≠ 0) :
          solution.values.value v = 0 := by
        rw [values]
        exact Tableau.basicSolution_of_not_basic
          (exact.not_basic (Tableau.mentions_of_coefficient found mentioned))
      have least (x : Variable → Rat) (still : ∀ v, row.coefficient (.external v) * x v = 0)
          (satisfied : problem.Satisfied x) : problem.cost solution.values.value ≤ problem.cost x := by
        rw [← constant]
        exact enrolled.constant_le_cost found minimal still ((holds x).2 satisfied)
      refine .solved ((holds _).1 ?_) objective (fun x satisfied zero => least x (fun v => ?_) satisfied)
        fun steady x => least x fun v => ?_
      · rw [values]
        exact enrolled.allHold exact.holds_basicSolution (shaped.admissible exact.toWellFormed)
      · by_cases mentioned : row.coefficient (.external v) = 0
        · rw [mentioned, zero_mul]
        · rw [zero v (outside v mentioned), mul_zero]
      · by_contra mentioned
        exact steady (enrolled.drifts_of_coefficient shaped (fun x => (holds x).1) found
          (left_ne_zero_of_mul mentioned))

theorem answers (unrestricted : problem.Unrestricted) : problem.Answers (problem.solve 0) := by
  obtain ⟨fault, answer, infeasible, none⟩ | ⟨s, posed, extends', answer⟩ :=
    solve_of_extending (Simplex.extending_install_unrestricted unrestricted false)
  · rw [answer]
    exact .infeasible infeasible none
  · rw [answer]
    exact answers_of_reads (Simplex.reads_of_extends extends') extends'.allHold_iff

/-- Solving decides every program that does not drift. The objective of one that drifts has no bound, and
solving it says so, or it answers with an assignment that satisfies the constraints and is best among those
that are zero wherever it is. -/
theorem unrestricted_spec (problem : Problem Rat) (unrestricted : problem.Unrestricted) :
    (¬problem.Drifts → Decides problem.objective.goal problem.Satisfied
      (fun x => problem.objective.expression.eval x) (fun solution => solution.values.value)
      (problem.solve 0)) ∧
    (problem.Drifts →
      (∀ least, ∃ x, problem.Satisfied x ∧
        problem.objective.goal.sign * problem.objective.expression.eval x < least) ∧
      (problem.solve 0 = .error .unbounded ∨
        ∃ solution, problem.solve 0 = .ok solution ∧ problem.Satisfied solution.values.value ∧
          solution.objective = problem.objective.expression.eval solution.values.value ∧
          ∀ x, problem.Satisfied x → (∀ v, solution.values.value v = 0 → x v = 0) →
            problem.objective.goal.sign * solution.objective ≤
              problem.objective.goal.sign * problem.objective.expression.eval x)) := by
  have answers := answers unrestricted
  generalize problem.solve 0 = answer at answers
  cases answers with
  | infeasible infeasible none =>
      refine ⟨fun _ => .of_infeasible infeasible none, fun drifts => ?_⟩
      obtain ⟨x, satisfied, -⟩ := drifts.exists_below 0
      exact absurd satisfied (none x)
  | unbounded below =>
      exact ⟨fun _ => .of_unbounded below, fun drifts => ⟨drifts.exists_below, .inl rfl⟩⟩
  | @solved solution satisfied objective still least =>
      refine ⟨fun steady => .of_optimum satisfied objective (least steady), fun drifts =>
        ⟨drifts.exists_below, .inr ⟨solution, rfl, satisfied, objective, fun x other zero => ?_⟩⟩⟩
      rw [objective]
      exact still x other zero

/-- The program to minimise one of two unknowns that add up to three. -/
def sloped : Problem Rat where
  objective := ⟨.minimize, .variable ⟨"x", 0⟩⟩
  constraints := [{
    tag := .given 0
    left := .add (.variable ⟨"x", 0⟩) (.variable ⟨"y", 1⟩)
    comparator := .eq
    right := .constant 3 }]
  nonnegative := false

theorem unrestricted_sloped : sloped.Unrestricted where
  unrestricted := rfl
  required := by decide
  given c member := by
    obtain rfl := List.mem_singleton.1 member
    exact ⟨0, rfl⟩
  distinct := by decide

theorem satisfied_sloped_iff : sloped.Satisfied x ↔ x ⟨"x", 0⟩ + x ⟨"y", 1⟩ = 3 :=
  List.forall_mem_singleton

/-- The unknowns may be moved against each other. -/
theorem drifts_sloped : sloped.Drifts := by
  refine ⟨fun v => if v.serial = 0 then 3 else 0, fun v => if v.serial = 0 then 1 else -1,
    fun t => ?_, ?_⟩
  · refine satisfied_sloped_iff.2 ?_
    simp
  · simp [sloped, LinExpr.eval]

/-- Three is answered, though the unknown may be as small as one likes. -/
theorem unrestricted_spec_sloped : sloped.Drifts ∧
    (∃ solution, sloped.solve 0 = .ok solution ∧ solution.objective = 3 ∧
      sloped.Satisfied solution.values.value) ∧
    ∀ least, ∃ x, sloped.Satisfied x ∧ x ⟨"x", 0⟩ < least := by
  obtain ⟨-, drifting⟩ := unrestricted_spec sloped unrestricted_sloped
  obtain ⟨below, answered⟩ := drifting drifts_sloped
  have read : (sloped.solve 0).toOption.map (·.objective) = some 3 := by decide +kernel
  refine ⟨drifts_sloped, ?_, fun least => ?_⟩
  · rcases answered with unbounded | ⟨solution, solved, satisfied, -, -⟩
    · rw [unbounded] at read
      cases read
    · rw [solved] at read
      exact ⟨solution, solved, Option.some.inj read, satisfied⟩
  · obtain ⟨x, satisfied, low⟩ := below least
    exact ⟨x, satisfied, by simpa [sloped, Goal.sign, LinExpr.eval] using low⟩

end Problem

end SoftSimplex
