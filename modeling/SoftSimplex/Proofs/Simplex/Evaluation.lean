import SoftSimplex.Proofs.Solver.Integrity

/-!
The objective of a solution.

The row of the objective charges for the unknowns what the expression of the program does, wherever the
tableau holds. So the objective that is read is the value of the expression at the values that are read
(`evaluate_spec`), whether or not these are best, and whatever was refused before.
-/

namespace SoftSimplex

open Tableau

variable {row : Row Rat} {problem : Problem Rat} {s s' : Simplex Rat}

theorem Tableau.billed_founded (row : Row Rat) (logged : Bool) :
    (founded row logged).Billed .objective row := fun _ holds =>
  holds .objective row (get?_founded.trans (if_pos rfl))

namespace Simplex

/-- The goal of a program, and a tableau whose objective is the expression of the program. -/
structure Pursues (problem : Problem Rat) (s : Simplex Rat) : Prop extends s.Consistent .free where
  goal : s.goal = problem.objective.goal
  exact : s.tableau.tolerance = some 0
  billed : s.tableau.Billed .objective problem.objective.purgedRow

theorem Pursues.evolves (pursues : s.Pursues problem) (evolves : s.Evolves .free s') :
    s'.Pursues problem := by
  obtain ⟨consistent, remembers⟩ := evolves pursues.toConsistent
  have external : ∀ c, problem.objective.purgedRow.coefficient c ≠ 0 → c.isExternal = true :=
    fun c nonzero => problem.objective.foundation_purgedRow.external c
      (Row.contains_of_coefficient nonzero)
  exact ⟨consistent, remembers.goal.trans pursues.goal, remembers.tolerance.trans pursues.exact,
    remembers.billed pursues.exact _ external pursues.billed⟩

/-- A solver that was put up for a program pursues it, even where the program contradicts itself. -/
theorem pursues_ofProblem (problem : Problem Rat) (logged : Bool) :
    (ofProblem (some 0) problem logged).state.Pursues problem :=
  Pursues.evolves ⟨consistent_founded le_rfl problem.objective logged, rfl,
    tolerance_insertRow _ _ _, Tableau.billed_founded _ logged⟩ (evolves_install le_rfl problem logged)

/-- The objective row and the values are read off one assignment, the basic solution. -/
theorem Pursues.evaluated (pursues : s.Pursues problem) :
    ∃ solution, evaluate.run s = (.ok solution, s) ∧
      solution.objective = problem.objective.expression.eval solution.values.value := by
  have wf := pursues.sound.toWellFormed
  obtain ⟨goal, found⟩ := Option.isSome_iff_exists.1 pursues.stored
  refine ⟨_, run_evaluate found, ?_⟩
  have values : s.values.value = onVariables s.tableau.basicSolution :=
    funext fun v => value_values wf v
  have read := pursues.billed _ wf.holds_basicSolution
  rw [basicSolution_of_basic found, Objective.eval_purgedRow] at read
  dsimp only
  rw [pursues.goal, read, values, ← mul_assoc]
  cases problem.objective.goal <;> simp [Goal.sign]

/-- After any calls of a solver for a program, answered or refused, the objective of the solution is the
value of the program's expression at the values of the solution. -/
theorem evaluate_spec (problem : Problem Rat) (logged : Bool)
    (runs : (ofProblem (some 0) problem logged).state.Runs s) :
    ∃ solution, evaluate.run s = (.ok solution, s) ∧
      solution.objective = problem.objective.expression.eval solution.values.value :=
  ((pursues_ofProblem problem logged).evolves runs.evolves).evaluated

/-- Three less an unknown is to be large, where the unknown is at least one. -/
def descent : Problem Rat where
  objective := ⟨.maximize, .add (.constant 3) (.scale (-1) (.variable ⟨"x", 0⟩))⟩
  constraints := [Solver.atLeastOne]

/-- The objective is right after a constraint was refused, too. -/
theorem evaluate_spec_refused : ∃ s solution,
    (ofProblem (some 0) descent).result.isOk = true ∧
    ((add Solver.atMostZero).run (ofProblem (some 0) descent).state).1.isOk = false ∧
    ((add Solver.atMostZero).run (ofProblem (some 0) descent).state).2 = s ∧
    evaluate.run s = (.ok solution, s) ∧
    solution.objective = descent.objective.expression.eval solution.values.value := by
  obtain ⟨made, refused⟩ : (ofProblem (some 0) descent).result.isOk = true ∧
      ((add Solver.atMostZero).run (ofProblem (some 0) descent).state).1.isOk = false := by
    decide +kernel
  obtain ⟨solution, read, value⟩ := evaluate_spec descent false
    (.single ⟨.add Solver.atMostZero, rfl⟩)
  exact ⟨_, solution, made, refused, rfl, read, value⟩

end Simplex

end SoftSimplex
