import SoftSimplex.Proofs.Simplex.Extending

/-!
Linear programs from scratch.

Every variable of a program over nonnegative variables is basic once its tableau is built, so that the
objective mentions none of them (`Tableau.Grounded`) and the method comes to an optimum or finds that
there is none (`solving_of_extends`).
-/

namespace SoftSimplex

variable {problem : Problem Rat} {v : Variable} {x : Variable → Rat}

namespace Problem

/-- A variable has a coefficient in the objective or in a constraint, once terms are collected. -/
def Names (problem : Problem Rat) (v : Variable) : Prop :=
  problem.objective.expression.net v ≠ 0 ∨
    ∃ c ∈ problem.constraints, c.left.net v ≠ c.right.net v

/-- An assignment satisfies the constraints, and no variable of the program is negative. -/
def Admits (problem : Problem Rat) (x : Variable → Rat) : Prop :=
  (∀ c ∈ problem.constraints, c.Holds x) ∧ ∀ v, problem.Names v → 0 ≤ x v

/-- What is to be minimised. -/
def cost (problem : Problem Rat) (x : Variable → Rat) : Rat :=
  problem.objective.goal.sign * problem.objective.expression.eval x

/-- A program over nonnegative variables, with required constraints that its caller tells apart. -/
structure Standard (problem : Problem Rat) : Prop where
  nonnegative : problem.nonnegative = true
  required : ∀ c ∈ problem.constraints, c.priority = .required
  given : ∀ c ∈ problem.constraints, ∃ n, c.tag = .given n
  distinct : (problem.constraints.map (·.tag)).Nodup

end Problem

namespace Tableau

variable {t t' : Tableau Rat} {key entry c : Column} {row : Row Rat} {x : Rat}

/-- Every unknown that the tableau knows of is basic. -/
def Grounded (t : Tableau Rat) : Prop :=
  ∀ v, .external v ∈ t.scope → (t.rows.get? (.external v)).isSome

/-- Where every unknown is basic no row mentions one. -/
theorem Grounded.coefficient_eq_zero (grounded : t.Grounded) (wf : t.WellFormed)
    (found : t.rows.get? key = some row)
    (external : c.isExternal = true) : row.coefficient c = 0 := by
  by_contra nonzero
  have mentioned := mentions_of_coefficient found nonzero
  cases c with
  | symbol _ => cases external
  | external v =>
      have basic := grounded v (wf.mem_scope_of_mentions mentioned)
      rw [wf.not_basic mentioned] at basic
      cases basic

theorem Grounded.turns (grounded : t.Grounded) (exact : t.Exact)
    (turns : t.Turns t') : t'.Grounded := by
  intro v known
  rw [turns.basic_eq exact rfl]
  exact grounded v (turns.scope_eq exact ▸ known)

/-- A column that grows without bound leaves the dummies at zero. -/
theorem Anchored.admissible_ray (anchored : t.Anchored) (wf : t.WellFormed)
    (pivotable : entry.isPivotable = true)
    (nonneg : ∀ c, c.isPivotable = true → 0 ≤ t.ray entry x c) : Admissible (t.ray entry x) where
  nonneg := nonneg
  zero c dummy := by
    refine anchored.extend_eq_zero wf (fun d isDummy outside => ?_) dummy
    refine Function.update_of_ne ?_ _ _
    rintro rfl
    rw [Column.not_dummy_of_pivotable pivotable] at isDummy
    cases isDummy

end Tableau

namespace Simplex

open Tableau

variable {s s' : Simplex Rat} {posed : List Posed} {goal : (Column → Rat) → Rat} {logged : Bool}

theorem mem_knownVariables (wf : s.tableau.WellFormed) :
    v ∈ s.knownVariables ↔ .external v ∈ s.tableau.scope := by
  rw [knownVariables, Sorted.Set.mem_toList, Sorted.Set.mem_ofList, List.mem_append,
    Sorted.Set.mem_toList, wf.basic, mem_scope]
  refine or_congr_right ?_
  rw [List.mem_filterMap, ← Sorted.Map.mem_keys_iff]
  constructor
  · rintro ⟨c, member, same⟩
    cases c with
    | external w =>
        obtain rfl := Option.some.inj same
        exact member
    | symbol _ => cases same
  · exact fun member => ⟨.external v, member, rfl⟩

theorem mem_scope_of_founded (objective : Objective Rat) :
    .external v ∈ (founded objective logged).tableau.scope ↔ objective.expression.net v ≠ 0 := by
  have coefficient : objective.unpurgedRow.coefficient (.external v) =
      objective.goal.sign * objective.expression.net v := by
    rw [Objective.unpurgedRow, Row.coefficient_accumulate, Row.coefficient_ofConstant, zero_add,
      List.map_singleton, List.sum_singleton]
  have sign : (objective.goal.sign : Rat) ≠ 0 := by
    cases objective.goal <;> simp [Goal.sign]
  refine mem_scope_founded.trans ?_
  rw [or_iff_right (by simp [Column.objective]), Objective.purgedRow, Row.contains_purge_zero,
    coefficient, ne_eq, mul_eq_zero, not_or]
  exact and_iff_right sign

theorem enrolled_founded (objective : Objective Rat) (logged : Bool) :
    (founded objective logged).Enrolled [] fun σ =>
      objective.goal.sign * objective.expression.eval (onVariables σ) where
  carries := carries_founded objective logged
  registered _ := rfl
  required _ member := absurd member List.not_mem_nil
  made _ member := absurd member List.not_mem_nil

/-- Adding what a standard program asks for enrols it, or finds that nothing satisfies it. -/
theorem extending_install (standard : problem.Standard) (logged : Bool) :
    Extending (fun σ => problem.cost (onVariables σ))
      ((Request.ofConstraints problem.constraints).and (.nonnegative problem.Names))
      (founded problem.objective logged) []
      ((install problem).run (empty (some 0) problem.objective.goal logged)) := by
  have first := (enrolled_founded problem.objective logged).extending_forEach
    (founded_shaped _ logged) (fun _ _ _ member => absurd member List.not_mem_nil)
    standard.distinct standard.required standard.given
  rw [run_install]
  refine first.andThen fun s posed extends' => ?_
  have names (v : Variable) : v ∈ s.knownVariables ↔ problem.Names v := by
    rw [mem_knownVariables extends'.enrolled.exact.toWellFormed, extends'.known,
      mem_scope_of_founded]
    rfl
  have same : Request.ofVariables s.knownVariables = .nonnegative problem.Names :=
    congrArg Request.nonnegative (funext fun v => propext (names v))
  rw [if_pos standard.nonnegative, Step.run_bind_get, ← same]
  exact extends'.enrolled.extending_variables extends'.shaped

/-! ### Optimising the objective of a program -/

theorem Enrolled.turned (enrolled : s.Enrolled posed goal) (turned : s.Turned s') :
    s'.Enrolled posed goal where
  carries := enrolled.carries.turns turned.turns turned.serial
  registered := by
    rw [turned.registered]
    exact enrolled.registered
  required := enrolled.required
  made := by
    rw [turned.nextMade]
    exact enrolled.made

/-- What optimising a program may come to. -/
inductive Optimizing (goal : (Column → Rat) → Rat) (s : Simplex Rat) (posed : List Posed) :
    Except (Fault Rat) Unit × Simplex Rat → Prop where
  | optimum {s' : Simplex Rat} {row : Row Rat} (turned : s.Turned s')
      (shaped : s'.tableau.Shaped) (found : s'.tableau.rows.get? .objective = some row)
      (minimal : Minimal row) :
      Optimizing goal s posed (.ok (), s')
  | unbounded {s' : Simplex Rat} (below : ∀ least, ∃ σ, AllHold posed (onVariables σ) ∧
      goal σ < least) : Optimizing goal s posed (.error .unbounded, s')

section

variable (enrolled : s.Enrolled posed goal) (shaped : s.tableau.Shaped)
include enrolled shaped

/-- A tableau at work comes to an optimum, or the objective falls without bound. -/
theorem Enrolled.optimizing_of_needed (needed : s.needsOptimize = true) :
    Optimizing goal s posed (optimize.run s) := by
  have represents := enrolled.carries.represents
  have exact := enrolled.exact
  obtain ⟨t', row, turns, feasible', found, ⟨minimal, -, ran⟩ | ⟨entry, drives, free, ran⟩⟩ :=
    ending_minimize_of_feasible exact rfl shaped.feasible represents.stored
  · rw [run_optimize_of_reached needed ran]
    exact .optimum ⟨rfl, rfl, rfl, rfl, turns⟩ (shaped.turns exact turns feasible') found minimal
  · rw [run_optimize_of_error needed ran]
    refine .unbounded fun least => ?_
    have exact' := turns.exact exact
    obtain ⟨x, nonneg, below⟩ := free.exists_below exact' feasible' found drives least
    have admissible := (shaped.turns exact turns feasible').anchored.admissible_ray
      exact'.toWellFormed drives.pivotable nonneg
    obtain ⟨equations, value⟩ := (represents.holds _).1
      ((turns.holds exact _).1 (exact'.holds_ray entry x))
    exact ⟨_, enrolled.required.meetsRequired_iff.1
      (enrolled.carries.family.meetsRequired equations admissible), value ▸ below⟩

omit enrolled shaped in
/-- An objective that mentions nothing is optimal as it is. -/
theorem optimizing_founded (objective : Objective Rat) :
    Optimizing goal (founded objective logged) posed
      (optimize.run (founded objective logged)) := by
  rw [run_optimize_of_not_needed rfl]
  have found : (founded objective logged).tableau.rows.get? .objective =
      some objective.purgedRow := get?_founded.trans (if_pos rfl)
  refine .optimum ⟨rfl, rfl, rfl, rfl, .refl⟩ (founded_shaped _ logged) found fun c pivotable => ?_
  by_contra negative
  have external := objective.foundation_purgedRow.external c
    (Row.contains_of_coefficient (not_le.1 negative).ne)
  rw [Column.not_pivotable_of_external external] at pivotable
  cases pivotable

end

/-! ### Solving a program -/

/-- How the solution of a program is read: the objective falls without bound, or nothing lowers the
objective row of the tableau that the solution is read from. -/
inductive Reads (problem : Problem Rat) (s : Simplex Rat) (posed : List Posed) :
    Except (Fault Rat) (Solution Rat) → Prop where
  | unbounded (below : ∀ least, ∃ x, AllHold posed x ∧ problem.cost x < least) :
      Reads problem s posed (.error .unbounded)
  | solved {s' : Simplex Rat} {row : Row Rat} {solution : Solution Rat} (turned : s.Turned s')
      (enrolled : s'.Enrolled posed fun σ => problem.cost (onVariables σ))
      (shaped : s'.tableau.Shaped) (found : s'.tableau.rows.get? .objective = some row)
      (minimal : Minimal row)
      (values : solution.values.value = onVariables s'.tableau.basicSolution)
      (constant : row.constant = problem.cost solution.values.value)
      (objective : solution.objective = problem.objective.expression.eval solution.values.value) :
      Reads problem s posed (.ok solution)

/-- A program that was built is solved, whatever was asked for. -/
theorem reads_of_extends {request : Request} {posed : List Posed}
    (extends' : Extends (fun σ => problem.cost (onVariables σ)) request
      (founded problem.objective logged) [] s posed) : Reads problem s posed (solve.run s).1 := by
  have optimizing : Optimizing (fun σ => problem.cost (onVariables σ)) s posed
      (optimize.run s) := by
    rcases extends'.needed with needed | rfl
    · exact extends'.enrolled.optimizing_of_needed extends'.shaped needed
    · exact optimizing_founded _
  generalize ran : optimize.run s = ended at optimizing
  cases optimizing with
  | unbounded below =>
      rw [solve, Step.run_bind_of_error ran]
      refine .unbounded fun least => ?_
      obtain ⟨σ, all, low⟩ := below least
      exact ⟨_, all, low⟩
  | @optimum s' row turned shaped found minimal =>
      have enrolled := extends'.enrolled.turned turned
      have values : s'.values.value = onVariables s'.tableau.basicSolution :=
        funext fun v => value_values enrolled.exact.toWellFormed v
      have constant : row.constant = problem.cost s'.values.value := by
        rw [values, ← basicSolution_of_basic found]
        exact ((enrolled.carries.represents.holds _).1 enrolled.exact.holds_basicSolution).2
      rw [solve, Step.run_bind_of_ok ran, run_evaluate found]
      refine .solved turned enrolled shaped found minimal values constant ?_
      dsimp only
      rw [constant, Problem.cost, ← mul_assoc, turned.goal, extends'.sameGoal]
      have square : (problem.objective.goal.sign : Rat) * problem.objective.goal.sign = 1 := by
        cases problem.objective.goal <;> simp [Goal.sign]
      change problem.objective.goal.sign * problem.objective.goal.sign * _ = _
      rw [square, one_mul]

/-- Admissible columns that satisfy the rows meet what is required. -/
theorem Enrolled.allHold {posed : List Posed} {σ : Column → Rat} (enrolled : s.Enrolled posed goal)
    (holds : s.tableau.Holds σ) (admissible : Admissible σ) : AllHold posed (onVariables σ) :=
  enrolled.required.meetsRequired_iff.1 (enrolled.carries.family.meetsRequired
    ((enrolled.carries.represents.holds σ).1 holds).1 admissible)

/-- Nothing that meets what is required costs less than an objective row that nothing lowers, where the
unknowns it mentions are zero. -/
theorem Enrolled.constant_le_cost {posed : List Posed} {row : Row Rat}
    (enrolled : s.Enrolled posed fun σ => problem.cost (onVariables σ))
    (found : s.tableau.rows.get? .objective = some row) (minimal : Minimal row)
    (still : ∀ v, row.coefficient (.external v) * x v = 0) (all : AllHold posed x) :
    row.constant ≤ problem.cost x := by
  have meets := enrolled.required.meetsRequired_iff.2 all
  obtain ⟨equations, -⟩ := enrolled.carries.family.completed meets
  have least := enrolled.exact.constant_le_of_still found minimal
    (enrolled.carries.represents.holds_withObjectiveOf enrolled.carries.family equations)
    (fun c external => by
      cases c with
      | external v => exact still v
      | symbol _ => cases external)
    ((Family.admissible_completion posed x).withObjectiveOf _)
  rwa [withObjectiveOf, Function.update_self] at least

/-- What solving a program may come to. -/
inductive Solving (problem : Problem Rat) : Except (Fault Rat) (Solution Rat) → Prop where
  | infeasible {fault : Fault Rat} (infeasible : fault.isInfeasible = true)
      (none : ∀ x, ¬problem.Admits x) : Solving problem (.error fault)
  | unbounded (below : ∀ least, ∃ x, problem.Admits x ∧ problem.cost x < least) :
      Solving problem (.error .unbounded)
  | solved {solution : Solution Rat} (admits : problem.Admits solution.values.value)
      (nonneg : ∀ v, 0 ≤ solution.values.value v)
      (value : solution.objective = problem.objective.expression.eval solution.values.value)
      (least : ∀ x, problem.Admits x → problem.cost solution.values.value ≤ problem.cost x) :
      Solving problem (.ok solution)

/-- A program that was built is solved. -/
theorem solving_of_extends {posed : List Posed}
    (extends' : Extends (fun σ => problem.cost (onVariables σ))
      ((Request.ofConstraints problem.constraints).and (.nonnegative problem.Names))
      (founded problem.objective logged) [] s posed) :
    Solving problem (solve.run s).1 := by
  have holds (x : Variable → Rat) : AllHold posed x ↔ problem.Admits x := extends'.allHold_iff x
  have names (v : Variable) (known : .external v ∈ s.tableau.scope) : problem.Names v := by
    rcases (extends'.known v).1 known with before | constrained | names
    · exact .inl ((mem_scope_of_founded _).1 before)
    · exact .inr constrained
    · exact names
  have grounded : s.tableau.Grounded := fun v known =>
    extends'.basic v (.inr (.inr (names v known)))
  have reads := reads_of_extends extends'
  generalize (solve.run s).1 = answer at reads
  cases reads with
  | unbounded below =>
      refine .unbounded fun least => ?_
      obtain ⟨x, all, low⟩ := below least
      exact ⟨x, (holds x).1 all, low⟩
  | @solved s' row solution turned enrolled shaped found minimal values constant objective =>
      have grounded' := grounded.turns extends'.enrolled.exact turned.turns
      have admits : problem.Admits solution.values.value := by
        rw [values]
        exact (holds _).1 (enrolled.allHold enrolled.exact.holds_basicSolution
          (shaped.admissible enrolled.exact.toWellFormed))
      refine .solved admits (fun v => ?_) objective fun x other => ?_
      · by_cases basic : (s'.tableau.rows.get? (.external v)).isSome
        · rw [turned.turns.basic_eq extends'.enrolled.exact rfl] at basic
          exact admits.2 v (names v (mem_scope.2 (.inl basic)))
        · rw [values, onVariables,
            basicSolution_of_not_basic (Option.not_isSome_iff_eq_none.1 basic)]
      · rw [← constant]
        refine enrolled.constant_le_cost found minimal (fun v => ?_) ((holds x).2 other)
        rw [grounded'.coefficient_eq_zero enrolled.exact.toWellFormed found rfl, zero_mul]

end Simplex

end SoftSimplex
