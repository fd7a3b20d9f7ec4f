import SoftSimplex.Proofs.Tableau.Courses
import SoftSimplex.Proofs.Tableau.Restoring
import SoftSimplex.Simplex

/-!
Optimising an objective, and repairing rows, in consistent tableaus.

Whatever the index and the sets of variables hold besides, optimising goes a course of pivots from a
feasible tableau and comes to its end, for the objective as for the artificial one
(`optimize_course_spec`). Repairing comes to its end from an optimal objective row, and fails only where
nothing admissible obeys the rows (`repair_restored_spec`). That is so if only restricted rows are recorded:
an unknown of the caller that is recorded leaves the basis, and then a row mentions it that may not
(`repair_astray`).
-/

namespace SoftSimplex.Simplex

open Tableau

variable {s : Simplex Rat}

/-- Where there may be something to gain, optimising is the primal method, which clears the flag if it
comes to an optimal row. -/
theorem optimize_of_waits (objective : Column) (waits : s.needsOptimize = true) :
    (optimize objective s).pivots = (minimize objective s.tableau).pivots ∧
      (optimize objective s).state.tableau = (minimize objective s.tableau).state ∧
      (optimize objective s).result = (minimize objective s.tableau).result.map fun _ => () := by
  rw [optimize, Step.bind_get_apply, if_pos waits]
  cases answer : (minimize objective s.tableau).result with
  | error fault =>
      have failed : (onTableau (minimize objective) s).result = .error fault := answer
      rw [Step.run_bind_error failed]
      exact ⟨rfl, rfl, rfl⟩
  | ok optimum =>
      have answered : (onTableau (minimize objective) s).result = .ok optimum := answer
      rw [Step.run_bind_ok answered]
      cases optimum with
      | reached => exact ⟨congrArg (List.filterMap _) (List.append_nil _), rfl, rfl⟩
      | noObjective => exact ⟨congrArg (List.filterMap _) (List.append_nil _), rfl, rfl⟩

/-- Optimising makes finitely many pivots, each of which keeps the pivotable rows from being negative and
does not raise the objective. Then no pivotable column lowers the objective, or the objective is unbounded:
a pivotable column lowers it along which no pivotable row decreases. -/
theorem optimize_course_spec (s : Simplex Rat) (objective : Column)
    (plain : objective.isObjective = true) (waits : s.needsOptimize = true)
    (consistent : s.tableau.Consistent) (feasible : s.tableau.Feasible) :
    Course objective s.tableau (optimize objective s).pivots (optimize objective s).state.tableau ∧
      (((optimize objective s).result = .ok () ∧
          ∀ goal, (optimize objective s).state.tableau.rows.get? objective = some goal →
            Minimal goal) ∨
        ((optimize objective s).result = .error .unbounded ∧
          ∃ goal entry, (optimize objective s).state.tableau.rows.get? objective = some goal ∧
            entry.isPivotable = true ∧ goal.coefficient entry < 0 ∧
            (optimize objective s).state.tableau.Unbounded entry)) := by
  have fixed := Column.not_pivotable_of_objective plain
  obtain ⟨course, closed⟩ := consistent.closed_minimize feasible fixed
  obtain ⟨pivots, state, result⟩ := optimize_of_waits objective waits
  rw [pivots, state, result]
  refine ⟨course, ?_⟩
  rw [Step.run] at closed
  generalize (minimize objective s.tableau).result = answer at closed
  generalize (minimize objective s.tableau).state = last at closed
  generalize ended : (answer, last) = outcome at closed
  cases closed with
  | reached found minimal =>
      cases ended
      exact .inl ⟨rfl, fun goal stored => Option.some.inj (found.symm.trans stored) ▸ minimal⟩
  | noObjective absent =>
      cases ended
      exact .inl ⟨rfl, fun goal stored => by rw [absent] at stored; cases stored⟩
  | unbounded found drives free =>
      cases ended
      exact .inr ⟨rfl, _, _, found, drives.pivotable, drives.negative, free⟩

/-! ### A degenerate tableau -/

/-- The tableau in which four columns are to lower the objective and two rows are zero. Choosing the steepest
column each time would come back to it after six pivots. -/
def degenerate : Tableau Rat :=
  let slack (serial : Nat) : Column := .symbol ⟨.slack, "s", serial⟩
  .ofRows
    [(slack 5, .ofTerms [(slack 1, -1/4), (slack 2, 60), (slack 3, 1/25), (slack 4, -9)] 0),
      (slack 6, .ofTerms [(slack 1, -1/2), (slack 2, 90), (slack 3, 1/50), (slack 4, -3)] 0),
      (slack 7, .ofTerms [(slack 3, -1)] 1),
      (.objective, .ofTerms [(slack 1, -3/4), (slack 2, 150), (slack 3, -1/50), (slack 4, 6)] 0)]

/-- The degenerate tableau is optimised by six pivots, which bring the objective down to `-1/20`. -/
theorem optimize_course_spec_degenerate :
    let s : Simplex Rat :=
      { Simplex.empty (some 0) .minimize with tableau := degenerate, needsOptimize := true }
    degenerate.Consistent ∧ degenerate.Feasible ∧
      (optimize .objective s).pivots.length = 6 ∧
      (optimize .objective s).state.tableau.basicSolution .objective = -1/20 ∧
      Course .objective degenerate (optimize .objective s).pivots
        (optimize .objective s).state.tableau ∧
      ∀ goal, (optimize .objective s).state.tableau.rows.get? .objective = some goal →
        Minimal goal := by
  intro s
  have consistent : degenerate.Consistent :=
    Matching.consistent (by decide +kernel) (by decide +kernel)
  have feasible : degenerate.Feasible := by decide +kernel
  obtain ⟨course, ends⟩ := optimize_course_spec s .objective rfl rfl consistent feasible
  have answers : (optimize .objective s).result.isOk = true := by decide +kernel
  refine ⟨consistent, feasible, by decide +kernel, by decide +kernel, course, ?_⟩
  rcases ends with ⟨-, minimal⟩ | ⟨failed, -⟩
  · exact minimal
  · rw [failed] at answers
    cases answers

/-! ### Repairs -/

/-- Repairing makes finitely many pivots. Then every restricted row is nonnegative and no pivotable column
lowers the objective, or it failed and no assignment that is nonnegative on the slack and artificial columns
and zero on the dummies satisfies the rows. -/
theorem repair_restored_spec (s : Simplex Rat) (consistent : s.tableau.Consistent)
    (sheltered : s.tableau.Sheltered) (settles : s.tableau.Settles .objective)
    (watched : s.tableau.Watched) :
    (((repair .objective).run s).1 = .ok () ∧
        (∀ key row, ((repair .objective).run s).2.tableau.rows.get? key = some row →
          key.isRestricted = true → 0 ≤ row.constant) ∧
        ((repair .objective).run s).2.tableau.Settles .objective) ∨
      (((repair .objective).run s).1 = .error .dualFailed ∧
        ∀ σ, Admissible σ → ¬s.tableau.Obeys σ) := by
  have repaired : (repair .objective).run s =
      (((Tableau.repair .objective).run s.tableau).1,
        { s with tableau := ((Tableau.repair .objective).run s.tableau).2 }) := rfl
  rw [repaired]
  rcases consistent.restored_repair sheltered settles watched rfl with
    ⟨t', ran, settles', nonneg⟩ | ⟨t', ran, none⟩
  · rw [ran]
    exact .inl ⟨rfl, nonneg, settles'⟩
  · rw [ran]
    exact .inr ⟨rfl, none⟩

/-- A tableau with a negative slack row, a negative dummy row and a recorded column without row. -/
def sunken : Tableau Rat :=
  let slack (serial : Nat) : Column := .symbol ⟨.slack, "s", serial⟩
  let dummy : Column := .symbol ⟨.dummy, "d", 4⟩
  { Tableau.ofRows
      [(.external ⟨"x", 0⟩, .ofTerms [(slack 3, 1)] (-7)), (slack 1, .ofTerms [(slack 2, 1)] (-2)),
        (dummy, .ofTerms [(slack 2, -1), (slack 3, 1)] (-1)),
        (.objective, .ofTerms [(slack 2, 1), (slack 3, 1)] 0)] with
    infeasible := .ofList [slack 1, dummy, slack 9] }

/-- The negative rows are repaired, the dummy's too, and the unknown comes to `-4`. -/
theorem repair_restored_spec_sunken :
    let s : Simplex Rat := { Simplex.empty (some 0) .minimize with tableau := sunken }
    sunken.Consistent ∧ sunken.Sheltered ∧ sunken.Settles .objective ∧ sunken.Watched ∧
      ((repair .objective).run s).2.tableau.basicSolution (.external ⟨"x", 0⟩) = -4 ∧
      ((repair .objective).run s).1 = .ok () ∧
      (∀ key row, ((repair .objective).run s).2.tableau.rows.get? key = some row →
        key.isRestricted = true → 0 ≤ row.constant) ∧
      ((repair .objective).run s).2.tableau.Settles .objective := by
  intro s
  have consistent : sunken.Consistent := Matching.consistent (by decide +kernel) (by decide +kernel)
  have sheltered : sunken.Sheltered := by decide +kernel
  have settles : sunken.Settles .objective := by decide +kernel
  have watched : sunken.Watched := by decide +kernel
  have answers : ((repair .objective).run s).1.isOk = true := by decide +kernel
  refine ⟨consistent, sheltered, settles, watched, by decide +kernel, ?_⟩
  rcases repair_restored_spec s consistent sheltered settles watched with restored | ⟨failed, -⟩
  · exact restored
  · rw [failed] at answers
    cases answers

/-- A tableau that records an unknown of the caller, which is negative, besides a slack row. -/
def astray : Tableau Rat :=
  let slack (serial : Nat) : Column := .symbol ⟨.slack, "s", serial⟩
  { Tableau.ofRows
      [(.external ⟨"x", 0⟩, .ofTerms [(slack 1, 1)] (-1)), (slack 2, .ofTerms [(slack 1, 1)] (-5)),
        (.objective, .ofConstant 0)] with
    infeasible := .ofList [.external ⟨"x", 0⟩, slack 2] }

/-- Where an unknown of the caller is recorded repairing may fail, although something admissible obeys the
rows: here `x = 4`. -/
theorem repair_astray :
    let s : Simplex Rat := { Simplex.empty (some 0) .minimize with tableau := astray }
    (astray.Consistent ∧ astray.Sheltered ∧ astray.Settles .objective ∧
      ∀ key row, astray.rows.get? key = some row → key.isRestricted = true → row.constant < 0 →
        key ∈ astray.infeasible) ∧
      ((repair .objective).run s).1 = .error .dualFailed ∧
      ∃ σ, Admissible σ ∧ σ (.external ⟨"x", 0⟩) = 4 ∧ astray.Obeys σ := by
  intro s
  have recorded : ∀ entry ∈ astray.rows.toList, entry.1.isRestricted = true →
      entry.2.constant < 0 → entry.1 ∈ astray.infeasible.toList := by decide +kernel
  have failed : (match ((repair .objective).run s).1 with
    | .error .dualFailed => true
    | _ => false) = true := by decide +kernel
  let slack : Column := .symbol ⟨.slack, "s", 1⟩
  let σ : Column → Rat := fun c => if c = .external ⟨"x", 0⟩ then 4 else if c = slack then 5 else 0
  refine ⟨⟨Matching.consistent (by decide +kernel) (by decide +kernel), by decide +kernel,
    by decide +kernel, fun key row found restricted negative => ?_⟩, ?_, σ,
    ⟨fun c _ => ?_, fun c dummy => ?_⟩, rfl, by decide +kernel⟩
  · exact Sorted.Set.mem_toList.1
      (recorded (key, row) (Sorted.Map.get?_eq_some_iff.1 found) restricted negative)
  · split at failed
    · next ended => exact ended
    · cases failed
  · show 0 ≤ σ c
    unfold σ
    split_ifs <;> norm_num
  · show σ c = 0
    have notExternal : c ≠ .external ⟨"x", 0⟩ := by rintro rfl; cases dummy
    have notSlack : c ≠ slack := by rintro rfl; cases dummy
    simp only [σ, if_neg notExternal, if_neg notSlack]

end SoftSimplex.Simplex
