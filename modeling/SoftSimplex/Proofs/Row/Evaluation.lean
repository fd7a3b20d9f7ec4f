import Mathlib.Algebra.BigOperators.Group.Finset.Basic
import Mathlib.Algebra.BigOperators.Group.List.Basic
import Mathlib.Algebra.BigOperators.Ring.Finset
import Mathlib.Algebra.Order.BigOperators.Group.Finset
import Mathlib.Tactic.FieldSimp
import Mathlib.Tactic.Linarith
import Mathlib.Tactic.Ring
import SoftSimplex.Proofs.Sorted.Entries
import SoftSimplex.Row

/-!
The value of a row, through its coefficients.

A row is known by its constant and its coefficients: rows that agree in these have one value under
every assignment (`eval_congr_row`), and an operation on rows is pinned down by what it does to
coefficients. `eval_combine` and `eval_update` turn such a description into an equation of values.
-/

namespace SoftSimplex

/-- What is near zero is at most the tolerance away from it. -/
theorem Scalar.nearZero_iff {e value : Rat} : Scalar.nearZero e value = true ↔ |value| ≤ e := by
  rw [Scalar.nearZero, Bool.and_eq_true, decide_eq_true_eq, decide_eq_true_eq, abs_le]

/-- Zero cannot be told from zero. -/
theorem Scalar.nearZero_of_zero {e : Rat} (nonneg : 0 ≤ e) : Scalar.nearZero e (0 : Rat) = true :=
  Scalar.nearZero_iff.2 (abs_zero.trans_le nonneg)

/-- Exact tests: with tolerance zero only zero counts as zero. -/
@[simp] theorem Scalar.nearZero_zero (value : Rat) : Scalar.nearZero 0 value = true ↔ value = 0 :=
  Scalar.nearZero_iff.trans abs_nonpos_iff

theorem Scalar.isZero_iff (value : Rat) : Scalar.isZero value = true ↔ value = 0 := by
  simp only [Scalar.isZero, Bool.and_eq_true, decide_eq_true_eq]
  exact ⟨fun h => le_antisymm h.1 h.2, fun h => by simp [h]⟩

theorem Scalar.quotient?_of_ne_zero {dividend divisor : Rat} (nonzero : divisor ≠ 0) :
    Scalar.quotient? dividend divisor = some (dividend / divisor) := by
  rw [Scalar.quotient?, if_neg (by simpa [Scalar.isZero_iff] using nonzero)]

namespace Row

variable {row other : Row Rat} {σ τ : Column → Rat} {column : Column}

/-! ### Coefficients -/

theorem coefficient_of_get? {k : Rat} (found : row.terms.get? column = some k) :
    row.coefficient column = k := by
  simp [coefficient, found]

theorem coefficient_of_get?_none (absent : row.terms.get? column = none) :
    row.coefficient column = 0 := by
  simp [coefficient, absent]

/-- A row has a term wherever it has a coefficient. -/
theorem contains_of_coefficient (nonzero : row.coefficient column ≠ 0) :
    row.terms.contains column = true := by
  rw [Sorted.Map.contains_iff]
  cases found : row.terms.get? column with
  | none => exact absurd (coefficient_of_get?_none found) nonzero
  | some k => exact ⟨k, rfl⟩

theorem coefficient_of_not_contains (absent : row.terms.contains column = false) :
    row.coefficient column = 0 := by
  by_contra nonzero
  rw [contains_of_coefficient nonzero] at absent
  cases absent

@[simp] theorem coefficient_ofConstant (value : Rat) (column : Column) :
    (ofConstant value).coefficient column = 0 := by
  simp [ofConstant, coefficient]

theorem coefficient_insert (row : Row Rat) (column other : Column) (k : Rat) :
    ({ row with terms := row.terms.insert column k } : Row Rat).coefficient other =
      if column = other then k else row.coefficient other := by
  simp only [coefficient, Sorted.Map.get?_insert]
  split <;> rfl

theorem coefficient_erase (row : Row Rat) (column other : Column) :
    ({ row with terms := row.terms.erase column } : Row Rat).coefficient other =
      if column = other then 0 else row.coefficient other := by
  simp only [coefficient, Sorted.Map.get?_erase]
  split <;> rfl

@[simp] theorem coefficient_scale (factor : Rat) (row : Row Rat) (column : Column) :
    (row.scale factor).coefficient column = row.coefficient column * factor := by
  simp only [scale, coefficient, Sorted.Map.get?_map]
  cases row.terms.get? column <;> simp

@[simp] theorem constant_scale (factor : Rat) (row : Row Rat) :
    (row.scale factor).constant = row.constant * factor := rfl

theorem coefficient_addTerm (row : Row Rat) (column other : Column) (k : Rat) :
    (row.addTerm column k).coefficient other =
      row.coefficient other + if column = other then k else 0 := by
  rw [addTerm, coefficient_insert]
  split
  · next same => rw [same]
  · simp

@[simp] theorem constant_addTerm (row : Row Rat) (column : Column) (k : Rat) :
    (row.addTerm column k).constant = row.constant := rfl

@[simp] theorem coefficient_purge (row : Row Rat) (column : Column) :
    (row.purge 0).coefficient column = row.coefficient column := by
  simp only [purge, coefficient, Sorted.Map.get?_filter]
  cases row.terms.get? column with
  | none => rfl
  | some k =>
      by_cases zero : k = 0
      · have dropped : Scalar.nearZero 0 k = true := (Scalar.nearZero_zero k).2 zero
        rw [Option.filter, dropped, zero]
        rfl
      · have kept : Scalar.nearZero 0 k = false :=
          Bool.eq_false_iff.2 fun near => zero ((Scalar.nearZero_zero k).1 near)
        rw [Option.filter, kept]
        rfl

@[simp] theorem constant_purge (row : Row Rat) : (row.purge 0).constant = row.constant := rfl

theorem get?_purge (e : Rat) (row : Row Rat) (c : Column) :
    (row.purge e).terms.get? c =
      (row.terms.get? c).filter fun coefficient => !Scalar.nearZero e coefficient :=
  Sorted.Map.get?_filter _ _ _

theorem get?_purge_ne_zero {e : Rat} (nonneg : 0 ≤ e) (row : Row Rat) (c : Column) :
    (row.purge e).terms.get? c ≠ some 0 := by
  rw [get?_purge]
  intro found
  simp [Option.filter_eq_some_iff, Scalar.nearZero_of_zero nonneg] at found

theorem contains_of_contains_purge {e : Rat} {row : Row Rat} {c : Column}
    (present : (row.purge e).terms.contains c = true) : row.terms.contains c = true := by
  obtain ⟨k, found⟩ := Sorted.Map.contains_iff.1 present
  rw [get?_purge, Option.filter_eq_some_iff] at found
  exact Sorted.Map.contains_iff.2 ⟨k, found.1⟩

/-- What is left are the terms whose coefficient can be told from zero. -/
theorem contains_purge {e : Rat} (nonneg : 0 ≤ e) {row : Row Rat} {c : Column} :
    (row.purge e).terms.contains c = true ↔ e < |row.coefficient c| := by
  rw [Sorted.Map.contains, get?_purge]
  cases found : row.terms.get? c with
  | none =>
      rw [coefficient_of_get?_none found, abs_zero]
      simpa using nonneg
  | some k =>
      rw [coefficient_of_get? found, ← not_le, ← Scalar.nearZero_iff, Bool.not_eq_true]
      cases near : Scalar.nearZero e k <;> simp [Option.filter, near]

theorem contains_purge_zero {row : Row Rat} {c : Column} :
    (row.purge 0).terms.contains c = true ↔ row.coefficient c ≠ 0 :=
  (contains_purge le_rfl).trans abs_pos

/-- A coefficient that can be told from zero is kept. -/
theorem coefficient_purge_of_lt {e : Rat} {row : Row Rat} {c : Column}
    (far : e < |row.coefficient c|) : (row.purge e).coefficient c = row.coefficient c := by
  cases found : row.terms.get? c with
  | none =>
      rw [coefficient_of_get?_none found]
      exact coefficient_of_get?_none (by rw [get?_purge, found]; rfl)
  | some k =>
      rw [coefficient_of_get? found] at far ⊢
      have kept : Scalar.nearZero e k = false :=
        Bool.eq_false_iff.2 fun near => absurd (Scalar.nearZero_iff.1 near) (not_le.2 far)
      exact coefficient_of_get? (by rw [get?_purge, found, Option.filter, kept]; rfl)

/-! ### Values -/

theorem foldl_terms (terms : List (Column × Rat)) (start : Rat) (σ : Column → Rat) :
    terms.foldl (fun sum term => sum + term.2 * σ term.1) start =
      start + (terms.map fun term => term.2 * σ term.1).sum := by
  induction terms generalizing start with
  | nil => simp
  | cons term rest ih => rw [List.foldl_cons, ih, List.map_cons, List.sum_cons]; ring


/-- The value of a row is its constant and the sum over any columns that include those it has a
coefficient for. -/
theorem eval_eq_sum (row : Row Rat) (σ : Column → Rat) (columns : Finset Column)
    (covers : ∀ column, row.coefficient column ≠ 0 → column ∈ columns) :
    row.eval σ = row.constant + ∑ column ∈ columns, row.coefficient column * σ column := by
  have entries : (row.terms.toList.map fun term => term.2 * σ term.1) =
      row.terms.keys.map fun column => row.coefficient column * σ column := by
    rw [Sorted.Map.keys, List.map_map]
    refine List.map_congr_left fun term member => ?_
    have found : row.terms.get? term.1 = some term.2 := Sorted.Map.get?_eq_some_iff.2 member
    rw [Function.comp_apply, coefficient_of_get? found]
  have keys : row.eval σ =
      row.constant + ∑ column ∈ row.terms.keys.toFinset, row.coefficient column * σ column := by
    rw [List.sum_toFinset _ row.terms.nodup_keys, ← entries]
    exact foldl_terms _ _ _
  have outside : ∀ column ∉ row.terms.keys.toFinset, row.coefficient column = 0 := by
    intro column absent
    by_contra nonzero
    have present := contains_of_coefficient nonzero
    exact absent (List.mem_toFinset.2 (Sorted.Map.mem_keys_iff_contains.2 present))
  have uncovered : ∀ column ∉ columns, row.coefficient column = 0 := by
    intro column absent
    by_contra nonzero
    exact absent (covers column nonzero)
  rw [keys]
  congr 1
  calc ∑ column ∈ row.terms.keys.toFinset, row.coefficient column * σ column
      = ∑ column ∈ row.terms.keys.toFinset ∪ columns, row.coefficient column * σ column :=
        Finset.sum_subset Finset.subset_union_left fun column _ absent => by
          rw [outside column absent, zero_mul]
    _ = ∑ column ∈ columns, row.coefficient column * σ column :=
        (Finset.sum_subset Finset.subset_union_right fun column _ absent => by
          rw [uncovered column absent, zero_mul]).symm

/-- The columns that a row has terms for. -/
def support (row : Row Rat) : Finset Column := row.terms.keys.toFinset

theorem mem_support_of_coefficient (nonzero : row.coefficient column ≠ 0) :
    column ∈ row.support :=
  List.mem_toFinset.2 (Sorted.Map.mem_keys_iff_contains.2 (contains_of_coefficient nonzero))

/-- A row whose coefficients combine those of two others has the combined value. -/
theorem eval_combine (row a b : Row Rat) (factor : Rat)
    (constants : row.constant = a.constant + factor * b.constant)
    (coefficients : ∀ column,
      row.coefficient column = a.coefficient column + factor * b.coefficient column)
    (σ : Column → Rat) : row.eval σ = a.eval σ + factor * b.eval σ := by
  have first := a.eval_eq_sum σ (a.support ∪ b.support) fun column nonzero =>
    Finset.mem_union_left _ (mem_support_of_coefficient nonzero)
  have second := b.eval_eq_sum σ (a.support ∪ b.support) fun column nonzero =>
    Finset.mem_union_right _ (mem_support_of_coefficient nonzero)
  have both := row.eval_eq_sum σ (a.support ∪ b.support) fun column nonzero => by
    rw [coefficients] at nonzero
    by_cases zero : a.coefficient column = 0
    · refine Finset.mem_union_right _ (mem_support_of_coefficient fun zero' => nonzero ?_)
      rw [zero, zero', mul_zero, add_zero]
    · exact Finset.mem_union_left _ (mem_support_of_coefficient zero)
  rw [both, first, second, constants, mul_add, Finset.mul_sum, add_add_add_comm,
    ← Finset.sum_add_distrib]
  congr 1
  refine Finset.sum_congr rfl fun column _ => ?_
  rw [coefficients]
  ring

theorem eval_ofConstant (value : Rat) (σ : Column → Rat) : (ofConstant value).eval σ = value := by
  rw [eval_eq_sum _ σ ∅ (by simp), Finset.sum_empty, add_zero]
  rfl

/-- Rows with the same constant and coefficients have the same value. -/
theorem eval_congr_row (constants : row.constant = other.constant)
    (coefficients : ∀ column, row.coefficient column = other.coefficient column)
    (σ : Column → Rat) : row.eval σ = other.eval σ := by
  have sum := eval_combine row other (ofConstant 0) 0 (by simp [constants])
    (by simp [coefficients]) σ
  simpa using sum

/-- Assignments that agree where a row has coefficients give it the same value. -/
theorem eval_congr (same : ∀ column, row.coefficient column ≠ 0 → σ column = τ column) :
    row.eval σ = row.eval τ := by
  rw [row.eval_eq_sum σ row.support fun _ => mem_support_of_coefficient,
    row.eval_eq_sum τ row.support fun _ => mem_support_of_coefficient]
  congr 1
  refine Finset.sum_congr rfl fun column _ => ?_
  by_cases zero : row.coefficient column = 0
  · rw [zero, zero_mul, zero_mul]
  · rw [same column zero]

/-- Changing one coefficient changes the value by the change times the value of the column. -/
theorem eval_update (row other : Row Rat) (column : Column) (k : Rat)
    (constants : row.constant = other.constant)
    (changed : row.coefficient column = k)
    (kept : ∀ c, c ≠ column → row.coefficient c = other.coefficient c) (σ : Column → Rat) :
    row.eval σ = other.eval σ + (k - other.coefficient column) * σ column := by
  have lone : (⟨Sorted.Map.empty.insert column 1, 0⟩ : Row Rat).eval σ = σ column := by
    rw [eval_eq_sum _ σ {column}]
    · simp [coefficient]
    · intro c nonzero
      by_contra outside
      refine nonzero ?_
      rw [Finset.mem_singleton] at outside
      simp only [coefficient, Sorted.Map.get?_insert, if_neg (Ne.symm outside)]
      rfl
  have sum := eval_combine row other ⟨Sorted.Map.empty.insert column 1, 0⟩
    (k - other.coefficient column)
    (by simp [constants])
    (fun c => by
      simp only [coefficient, Sorted.Map.get?_insert]
      split
      · next same =>
          subst same
          rw [← coefficient, ← coefficient, changed, Option.getD_some]
          ring
      · next different =>
          have zero : ((Sorted.Map.empty : Sorted.Map Column Rat).get? c).getD 0 = 0 := rfl
          rw [zero, ← coefficient, ← coefficient, kept c (Ne.symm different)]
          ring) σ
  rw [sum, lone]

theorem eval_scale (factor : Rat) (row : Row Rat) (σ : Column → Rat) :
    (row.scale factor).eval σ = row.eval σ * factor := by
  have sum := eval_combine (row.scale factor) (ofConstant 0) row factor
    (by simp [ofConstant, mul_comm]) (by simp [mul_comm]) σ
  rw [sum, eval_ofConstant]
  ring

theorem eval_addTerm (row : Row Rat) (column : Column) (k : Rat) (σ : Column → Rat) :
    (row.addTerm column k).eval σ = row.eval σ + k * σ column := by
  have changed := eval_update (row.addTerm column k) row column (row.coefficient column + k) rfl
    (by rw [coefficient_addTerm, if_pos rfl])
    (fun c different => by rw [coefficient_addTerm, if_neg (Ne.symm different), add_zero]) σ
  rw [changed]
  ring

theorem eval_addConstant (row : Row Rat) (value : Rat) (σ : Column → Rat) :
    (row.addConstant value).eval σ = row.eval σ + value := by
  have sum := eval_combine (row.addConstant value) row (ofConstant value) 1
    (by simp [addConstant, ofConstant]) (fun c => by simp [addConstant, coefficient, ofConstant]) σ
  rw [sum, eval_ofConstant, one_mul]

theorem eval_insert (row : Row Rat) (column : Column) (k : Rat) (σ : Column → Rat) :
    ({ row with terms := row.terms.insert column k } : Row Rat).eval σ =
      row.eval σ + (k - row.coefficient column) * σ column :=
  eval_update { row with terms := row.terms.insert column k } row column k rfl
    (by rw [coefficient_insert, if_pos rfl])
    (fun c different => by rw [coefficient_insert, if_neg (Ne.symm different)]) σ

theorem eval_erase (row : Row Rat) (column : Column) (σ : Column → Rat) :
    ({ row with terms := row.terms.erase column } : Row Rat).eval σ =
      row.eval σ - row.coefficient column * σ column := by
  have changed := eval_update { row with terms := row.terms.erase column } row column 0 rfl
    (by rw [coefficient_erase, if_pos rfl])
    (fun c different => by rw [coefficient_erase, if_neg (Ne.symm different)]) σ
  rw [changed]
  ring

@[simp] theorem eval_purge (row : Row Rat) (σ : Column → Rat) :
    (row.purge 0).eval σ = row.eval σ :=
  eval_congr_row (by simp) (by simp) σ

/-- The value at the origin is the constant. -/
theorem eval_zero (row : Row Rat) : row.eval (fun _ => 0) = row.constant := by
  rw [row.eval_eq_sum _ row.support fun _ => mem_support_of_coefficient]
  simp

/-- If no term is negative the value is at least the constant. -/
theorem constant_le_eval (terms : ∀ column, 0 ≤ row.coefficient column * σ column) :
    row.constant ≤ row.eval σ := by
  rw [row.eval_eq_sum σ row.support fun _ => mem_support_of_coefficient]
  have sum := Finset.sum_nonneg fun column (_ : column ∈ row.support) => terms column
  linarith

/-- If no term is positive the value is at most the constant. -/
theorem eval_le_constant (terms : ∀ column, row.coefficient column * σ column ≤ 0) :
    row.eval σ ≤ row.constant := by
  rw [row.eval_eq_sum σ row.support fun _ => mem_support_of_coefficient]
  have sum := Finset.sum_nonpos fun column (_ : column ∈ row.support) => terms column
  linarith

/-- The parts that two assignments contribute add up. -/
theorem eval_add_assignment (row : Row Rat) (σ τ : Column → Rat) :
    row.eval (fun c => σ c + τ c) = row.eval σ + (row.eval τ - row.constant) := by
  have sum (σ : Column → Rat) := row.eval_eq_sum σ row.support fun _ => mem_support_of_coefficient
  simp only [sum, mul_add, Finset.sum_add_distrib]
  ring

/-- The value does not fall if no term does. -/
theorem eval_le_eval (terms : ∀ column,
    row.coefficient column * σ column ≤ row.coefficient column * τ column) :
    row.eval σ ≤ row.eval τ := by
  have difference : row.constant ≤ row.eval fun c => τ c - σ c := constant_le_eval fun column => by
    rw [mul_sub]
    exact sub_nonneg.2 (terms column)
  have sum := row.eval_add_assignment σ fun c => τ c - σ c
  simp only [add_sub_cancel] at sum
  linarith

/-- Moving one column moves the value by its coefficient. -/
theorem eval_update_assignment (row : Row Rat) (σ : Column → Rat) (column : Column) (x : Rat) :
    row.eval (Function.update σ column x) =
      row.eval σ + row.coefficient column * (x - σ column) := by
  have covers : ∀ c, row.coefficient c ≠ 0 → c ∈ insert column row.support := fun c nonzero =>
    Finset.mem_insert_of_mem (mem_support_of_coefficient nonzero)
  have member : column ∈ insert column row.support := Finset.mem_insert_self _ _
  rw [row.eval_eq_sum _ _ covers, row.eval_eq_sum _ _ covers,
    ← Finset.add_sum_erase _ _ member, ← Finset.add_sum_erase _ _ member, Function.update_self,
    Finset.sum_congr rfl fun c away => by
      rw [Function.update_of_ne (Finset.ne_of_mem_erase away)]]
  ring

end Row

end SoftSimplex
