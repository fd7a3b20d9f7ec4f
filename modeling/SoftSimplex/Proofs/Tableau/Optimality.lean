import SoftSimplex.Proofs.Tableau.Minimization

/-!
Optimal objective rows.

A tableau is `Shaped` if its basic solution is admissible and stays so along turns. Where dummies may be away
from zero it is still `Steady`: turns leave them where they are (`Steady.turns`).

Moving an unknown of the caller leaves the restricted columns where they are (`Sheltered.ray_eq`), so that
an objective with a lower bound does not mention it (`Exact.coefficient_external_eq_zero`). If moreover no
pivotable column lowers it, its constant is the least value on the admissible assignments that hold
(`Exact.constant_le`).
-/

namespace SoftSimplex.Tableau

variable {t t' : Tableau Rat} {objective key c : Column} {goal row : Row Rat} {σ : Column → Rat}

/-- Sheltered, anchored and feasible: the basic solution is admissible, and turns keep dummies at
zero. -/
structure Shaped (t : Tableau Rat) : Prop where
  sheltered : t.Sheltered
  anchored : t.Anchored
  feasible : t.Feasible

theorem Shaped.admissible (shaped : t.Shaped) (wf : t.WellFormed) : Admissible t.basicSolution :=
  shaped.feasible.admissible shaped.anchored wf

/-- Moving an unknown of the caller leaves every restricted column where it is. -/
theorem Sheltered.ray_eq (sheltered : t.Sheltered) (external : c.isExternal = true) (x : Rat)
    (restricted : key.isRestricted = true) : t.ray c x key = t.basicSolution key := by
  refine ray_of_unmentioned (fun mentioned => ?_) ?_ x
  · rw [sheltered key c restricted mentioned] at external
    cases external
  · rintro rfl
    rw [Column.not_external_of_restricted restricted] at external
    cases external

theorem Shaped.admissible_ray (shaped : t.Shaped) (wf : t.WellFormed) (external : c.isExternal = true)
    (x : Rat) : Admissible (t.ray c x) where
  nonneg key pivotable := by
    rw [shaped.sheltered.ray_eq external x (Column.restricted_of_pivotable pivotable)]
    exact shaped.feasible key pivotable
  zero key dummy := by
    rw [shaped.sheltered.ray_eq external x (Column.restricted_of_dummy dummy)]
    exact (shaped.admissible wf).zero key dummy

/-! ### Steady tableaus -/

/-- Sheltered, insulated and upright: the dummies may be away from zero, but turns leave them there. -/
structure Steady (t : Tableau Rat) : Prop where
  sheltered : t.Sheltered
  insulated : t.Insulated
  upright : t.Upright

theorem Steady.feasible (steady : t.Steady) : t.Feasible := steady.upright.feasible

theorem Shaped.upright (shaped : t.Shaped) : t.Upright := fun key row found restricted => by
  rcases Column.pivotable_or_dummy restricted with pivotable | dummy
  · exact shaped.feasible.constant found pivotable
  · exact (shaped.anchored.constant key row dummy found).ge

theorem Shaped.steady (shaped : t.Shaped) : t.Steady :=
  ⟨shaped.sheltered, shaped.anchored.mentions, shaped.upright⟩

/-- A steady tableau is shaped where its dummies are at zero. -/
theorem Steady.shaped (steady : t.Steady) (zero : ∀ c, c.isDummy = true → t.basicSolution c = 0) :
    t.Shaped :=
  ⟨steady.sheltered, steady.insulated.anchored zero, steady.feasible⟩

/-- Whether a tableau is steady is seen by its restricted rows. -/
theorem Steady.of_rows (steady : t.Steady)
    (same : ∀ key row, key.isRestricted = true → t'.rows.get? key = some row →
      t.rows.get? key = some row) : t'.Steady where
  sheltered key c restricted mentioned := by
    obtain ⟨row, found, present⟩ := mentions_iff.1 mentioned
    exact steady.sheltered key c restricted
      (mentions_iff.2 ⟨row, same key row restricted found, present⟩)
  insulated key c dummy mentioned := by
    obtain ⟨row, found, present⟩ := mentions_iff.1 mentioned
    exact steady.insulated key c dummy
      (mentions_iff.2 ⟨row, same key row (Column.restricted_of_dummy dummy) found, present⟩)
  upright key row found restricted :=
    steady.upright key row (same key row restricted found) restricted

/-- A tableau is steady, and its dummies are where they were. -/
structure Retains (t t' : Tableau Rat) : Prop extends t'.Steady where
  dummies : ∀ c, c.isDummy = true → t'.basicSolution c = t.basicSolution c

theorem Retains.trans {t'' : Tableau Rat} (first : t.Retains t') (second : t'.Retains t'') :
    t.Retains t'' :=
  ⟨second.toSteady, fun c dummy => (second.dummies c dummy).trans (first.dummies c dummy)⟩

theorem Retains.shaped (retains : t.Retains t') (shaped : t.Shaped) : t'.Shaped :=
  retains.toSteady.shaped fun c dummy => by
    rw [retains.dummies c dummy]
    cases found : t.rows.get? c with
    | none => exact basicSolution_of_not_basic found
    | some row =>
        rw [basicSolution_of_basic found]
        exact shaped.anchored.constant c row dummy found

/-- Turns to a feasible tableau keep it steady. -/
theorem Steady.turns (steady : t.Steady) (exact : t.Exact) (turns : t.Turns t')
    (feasible : t'.Feasible) : t.Retains t' where
  sheltered := steady.sheltered.turns exact turns
  insulated := steady.insulated.turns exact turns
  upright := upright_iff.2 fun c restricted => by
    rcases Column.pivotable_or_dummy restricted with pivotable | dummy
    · exact feasible c pivotable
    · rw [steady.insulated.basicSolution_turns exact turns dummy]
      exact steady.upright.nonneg restricted
  dummies _ dummy := steady.insulated.basicSolution_turns exact turns dummy

/-! ### Shaped tableaus -/

/-- The shape of a tableau is that of its restricted rows. -/
theorem Shaped.of_rows (shaped : t.Shaped)
    (same : ∀ key row, key.isRestricted = true → t'.rows.get? key = some row →
      t.rows.get? key = some row) : t'.Shaped :=
  (shaped.steady.of_rows same).shaped fun c dummy => by
    cases found : t'.rows.get? c with
    | none => exact basicSolution_of_not_basic found
    | some row =>
        rw [basicSolution_of_basic found]
        exact shaped.anchored.constant c row dummy
          (same c row (Column.restricted_of_dummy dummy) found)

theorem Shaped.turns (shaped : t.Shaped) (exact : t.Exact) (turns : t.Turns t')
    (feasible : t'.Feasible) : t'.Shaped :=
  (shaped.steady.turns exact turns feasible).shaped shaped

/-! ### Objectives -/

section

variable (exact : t.Exact) (found : t.rows.get? objective = some goal)
include exact found

/-- An objective with a lower bound mentions no unknown of the caller. -/
theorem Exact.coefficient_external_eq_zero (sheltered : t.Sheltered) (feasible : t.Feasible)
    (bounded : ∃ least, ∀ σ, t.Holds σ → (∀ c, c.isPivotable = true → 0 ≤ σ c) →
      least ≤ σ objective) (external : c.isExternal = true) : goal.coefficient c = 0 := by
  by_contra nonzero
  obtain ⟨least, bound⟩ := bounded
  have low := bound _ (exact.holds_ray c ((least - goal.constant - 1) / goal.coefficient c))
    fun key pivotable => by
      rw [sheltered.ray_eq external _ (Column.restricted_of_pivotable pivotable)]
      exact feasible key pivotable
  rw [ray_of_basic found, mul_div_cancel₀ _ nonzero] at low
  linarith

/-- An objective row that nothing lowers is nowhere less than its constant, among assignments at which the
unknowns of the caller add nothing to it and the dummies outside the basis are zero. -/
theorem Exact.constant_le_eval (minimal : Minimal goal)
    (still : ∀ c, c.isExternal = true → goal.coefficient c * σ c = 0)
    (nonneg : ∀ c, c.isPivotable = true → 0 ≤ σ c)
    (fixed : ∀ c, c.isDummy = true → t.rows.get? c = none → σ c = 0) :
    goal.constant ≤ goal.eval σ := by
  refine Row.constant_le_eval fun c => ?_
  by_cases external : c.isExternal = true
  · exact (still c external).ge
  by_cases zero : goal.coefficient c = 0
  · rw [zero, zero_mul]
  have mentioned := mentions_of_coefficient found zero
  rcases Column.pivotable_or_dummy (Column.restricted_of_internal (Bool.eq_false_iff.2 external)
    (exact.noObjective objective c mentioned)) with pivotable | dummy
  · exact mul_nonneg (minimal c pivotable) (nonneg c pivotable)
  · rw [fixed c dummy (exact.not_basic mentioned), mul_zero]

/-- An objective row that nothing lowers has its least value at the basic solution, among assignments at
which the unknowns of the caller add nothing to it. -/
theorem Exact.constant_le_of_still (minimal : Minimal goal) (holds : t.Holds σ)
    (still : ∀ c, c.isExternal = true → goal.coefficient c * σ c = 0) (admissible : Admissible σ) :
    goal.constant ≤ σ objective := by
  rw [holds objective goal found]
  exact exact.constant_le_eval found minimal still admissible.nonneg fun c dummy _ =>
    admissible.zero c dummy

/-- An objective row that nothing lowers has its least value at the basic solution. -/
theorem Exact.constant_le (minimal : Minimal goal)
    (closed : ∀ c, c.isExternal = true → goal.coefficient c = 0) (holds : t.Holds σ)
    (admissible : Admissible σ) : goal.constant ≤ σ objective :=
  exact.constant_le_of_still found minimal holds
    (fun c external => mul_eq_zero_of_left (closed c external) _) admissible

end

end SoftSimplex.Tableau
