import SoftSimplex.Proofs.Row.Evaluation

/-!
Rows of expressions and constraints.

At each turn of the loop that collects terms, the row and what still waits on the stack add up to one
and the same value (`eval_accumulate`). So a row made from an expression has the value of the expression,
and the residual row of a constraint says by its sign whether the constraint holds
(`holds_iff_residual`).
-/

namespace SoftSimplex

/-- The values that an assignment to columns gives to variables. -/
def onVariables (σ : Column → Rat) : Variable → Rat := fun v => σ (.external v)

/-- The assignment to columns that gives variables their values, and zero to all other columns. -/
def onColumns (x : Variable → Rat) : Column → Rat
  | .external v => x v
  | .symbol _ => 0

@[simp] theorem onVariables_onColumns (x : Variable → Rat) : onVariables (onColumns x) = x := rfl

namespace Constraint

/-- The relation that a constraint asks for. -/
def Holds (c : Constraint Rat) (x : Variable → Rat) : Prop :=
  match c.comparator with
  | .eq => c.left.eval x = c.right.eval x
  | .le => c.left.eval x ≤ c.right.eval x
  | .ge => c.right.eval x ≤ c.left.eval x

/-- Without tolerance the test is for the relation itself. -/
theorem isSatisfied_zero (c : Constraint Rat) (x : Variable → Rat) :
    c.isSatisfied x 0 = true ↔ c.Holds x := by
  unfold isSatisfied residual Holds
  cases c.comparator with
  | eq => exact (Scalar.nearZero_zero _).trans sub_eq_zero
  | le => exact decide_eq_true_iff.trans sub_nonpos
  | ge => exact decide_eq_true_iff.trans (by rw [neg_zero, sub_nonneg])

/-- How far an assignment falls short of a constraint. -/
def violation (c : Constraint Rat) (x : Variable → Rat) : Rat :=
  match c.comparator with
  | .eq => |c.left.eval x - c.right.eval x|
  | .le => max 0 (c.left.eval x - c.right.eval x)
  | .ge => max 0 (c.right.eval x - c.left.eval x)

/-- Nothing is missing exactly where the relation holds. -/
theorem violation_eq_zero_iff (c : Constraint Rat) (x : Variable → Rat) :
    c.violation x = 0 ↔ c.Holds x := by
  unfold violation Holds
  cases c.comparator with
  | eq => simp only [abs_eq_zero]; exact sub_eq_zero
  | le => simp
  | ge => simp

theorem violation_nonneg (c : Constraint Rat) (x : Variable → Rat) : 0 ≤ c.violation x := by
  unfold violation
  cases c.comparator with
  | eq => exact abs_nonneg _
  | le => exact le_max_left _ _
  | ge => exact le_max_left _ _

end Constraint

/-- The coefficient of a variable in an expression, once its terms are collected. -/
def LinExpr.net (v : Variable) : LinExpr Rat → Rat
  | .variable w => if w = v then 1 else 0
  | .constant _ => 0
  | .add left right => left.net v + right.net v
  | .scale factor body => factor * body.net v

namespace Row

/-! ### Expressions -/

/-- The row and what waits make up one value, whatever part of it has been collected. -/
theorem eval_accumulate (pending : List (Rat × LinExpr Rat)) (row : Row Rat) (σ : Column → Rat) :
    (accumulate pending row).eval σ = row.eval σ +
      (pending.map fun waiting => waiting.1 * waiting.2.eval (onVariables σ)).sum := by
  induction pending, row using accumulate.induct with
  | case1 row => rw [accumulate, List.map_nil, List.sum_nil, add_zero]
  | case2 factor v pending row ih =>
      rw [accumulate, ih, eval_addTerm, List.map_cons, List.sum_cons, LinExpr.eval, onVariables]
      ring
  | case3 factor value pending row ih =>
      rw [accumulate, ih, eval_addConstant, List.map_cons, List.sum_cons, LinExpr.eval]
      ring
  | case4 factor left right pending row ih =>
      rw [accumulate, ih]
      simp only [List.map_cons, List.sum_cons, LinExpr.eval]
      ring
  | case5 factor inner body pending row ih =>
      rw [accumulate, ih]
      simp only [List.map_cons, List.sum_cons, LinExpr.eval]
      ring

theorem coefficient_accumulate (pending : List (Rat × LinExpr Rat)) (row : Row Rat) (v : Variable) :
    (accumulate pending row).coefficient (.external v) = row.coefficient (.external v) +
      (pending.map fun waiting => waiting.1 * waiting.2.net v).sum := by
  induction pending, row using accumulate.induct with
  | case1 row => rw [accumulate, List.map_nil, List.sum_nil, add_zero]
  | case2 factor w pending row ih =>
      rw [accumulate, ih, coefficient_addTerm, List.map_cons, List.sum_cons, LinExpr.net]
      by_cases same : w = v
      · simp only [same, if_true]
        ring
      · simp [same]
  | case3 factor value pending row ih =>
      rw [accumulate, ih, List.map_cons, List.sum_cons, LinExpr.net, mul_zero, zero_add]
      rfl
  | case4 factor left right pending row ih =>
      rw [accumulate, ih]
      simp only [List.map_cons, List.sum_cons, LinExpr.net]
      ring
  | case5 factor inner body pending row ih =>
      rw [accumulate, ih]
      simp only [List.map_cons, List.sum_cons, LinExpr.net]
      ring

/-- Expressions mention variables only. -/
theorem get?_accumulate_symbol (pending : List (Rat × LinExpr Rat)) (row : Row Rat) (s : Symbol) :
    (accumulate pending row).terms.get? (.symbol s) = row.terms.get? (.symbol s) := by
  induction pending, row using accumulate.induct with
  | case1 row => rw [accumulate]
  | case2 factor v pending row ih =>
      rw [accumulate, ih]
      simp [addTerm, Sorted.Map.get?_insert]
  | case3 factor value pending row ih => rw [accumulate, ih]; rfl
  | case4 factor left right pending row ih => rw [accumulate, ih]
  | case5 factor inner body pending row ih => rw [accumulate, ih]

/-! ### Constraints -/

/-- The side of zero that a residual must be on. -/
def Admits (comparator : Comparator) (value : Rat) : Prop :=
  match comparator with
  | .eq => value = 0
  | .le => 0 ≤ value
  | .ge => 0 ≤ value

theorem admits_iff_nonneg {comparator : Comparator} {value : Rat} (unequal : comparator ≠ .eq) :
    Admits comparator value ↔ 0 ≤ value := by
  cases comparator with
  | eq => exact absurd rfl unequal
  | le | ge => rfl

theorem eval_residual (c : Constraint Rat) (σ : Column → Rat) :
    (residual c).eval σ = residualSign c.comparator *
      (c.left.eval (onVariables σ) - c.right.eval (onVariables σ)) := by
  rw [residual, eval_accumulate, eval_ofConstant]
  simp only [List.map_cons, List.map_nil, List.sum_cons, List.sum_nil]
  ring

theorem get?_residual_symbol (c : Constraint Rat) (s : Symbol) :
    (residual c).terms.get? (.symbol s) = none := by
  rw [residual, get?_accumulate_symbol]
  rfl

/-- A variable has a coefficient in the residual exactly if the two sides do not cancel it. -/
theorem coefficient_residual_ne_zero_iff (c : Constraint Rat) (v : Variable) :
    (residual c).coefficient (.external v) ≠ 0 ↔ c.left.net v ≠ c.right.net v := by
  have value : (residual c).coefficient (.external v) =
      residualSign c.comparator * (c.left.net v - c.right.net v) := by
    rw [residual, coefficient_accumulate, coefficient_ofConstant]
    simp only [List.map_cons, List.map_nil, List.sum_cons, List.sum_nil]
    ring
  have sign : (residualSign c.comparator : Rat) ≠ 0 := by
    unfold residualSign
    cases c.comparator <;> simp
  rw [value, ne_eq, mul_eq_zero, not_or, sub_eq_zero]
  exact and_iff_right sign

/-- A constraint holds exactly where its residual is on the right side of zero. -/
theorem holds_iff_residual (c : Constraint Rat) (σ : Column → Rat) :
    c.Holds (onVariables σ) ↔ Admits c.comparator ((residual c).eval σ) := by
  rw [eval_residual]
  unfold Constraint.Holds Admits residualSign
  cases c.comparator with
  | eq => simp only [one_mul]; exact sub_eq_zero.symm
  | le => constructor <;> intro h <;> linarith
  | ge => simp only [one_mul]; exact sub_nonneg.symm

/-- What is missing, by the residual. -/
theorem violation_eq_residual (c : Constraint Rat) (σ : Column → Rat) :
    c.violation (onVariables σ) =
      match c.comparator with
      | .eq => |(residual c).eval σ|
      | _ => max 0 (-(residual c).eval σ) := by
  rw [eval_residual]
  unfold Constraint.violation residualSign
  cases c.comparator with
  | eq => simp
  | le => simp
  | ge => simp

/-! ### Rows say what expressions and constraints say -/

/-- Without tolerance, the loop makes of every expression and factor a row of variables without zero
coefficients, which has the value of the expression times the factor. A constraint is satisfied exactly
where its row is zero, or not negative if it is an inequality, of either direction. -/
theorem rows_spec :
    (∀ (e : LinExpr Rat) (factor : Rat),
      (∀ c k, (ofExpr factor 0 e).terms.get? c = some k → c.isExternal = true ∧ k ≠ 0) ∧
      ∀ x, (ofExpr factor 0 e).eval (onColumns x) = factor * e.eval x) ∧
    ∀ (c : Constraint Rat) (x : Variable → Rat), c.isSatisfied x 0 = true ↔
      match c.comparator with
      | .eq => (ofConstraint 0 c).eval (onColumns x) = 0
      | .le | .ge => 0 ≤ (ofConstraint 0 c).eval (onColumns x) := by
  refine ⟨fun e factor => ⟨fun c k found => ⟨?_, ?_⟩, fun x => ?_⟩, fun c x => ?_⟩
  · cases c with
    | external v => rfl
    | symbol s =>
        have collected := contains_of_contains_purge (Sorted.Map.contains_iff.2 ⟨k, found⟩)
        rw [Sorted.Map.contains, get?_accumulate_symbol] at collected
        cases collected
  · rintro rfl
    exact get?_purge_ne_zero le_rfl _ c found
  · rw [ofExpr, eval_purge, eval_accumulate, eval_ofConstant, zero_add, List.map_singleton,
      List.sum_singleton, onVariables_onColumns]
  · have value := holds_iff_residual c (onColumns x)
    rw [onVariables_onColumns, ← eval_purge] at value
    rw [Constraint.isSatisfied_zero, value]
    rfl

end Row

end SoftSimplex
