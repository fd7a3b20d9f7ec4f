import SoftSimplex.Proofs.Row.Evaluation
import SoftSimplex.Proofs.Step.Run
import SoftSimplex.Row.Solve

/-!
Solving rows for a column, and replacing a column by a row.

`solvedFor` and `pivoted` are the rows that a column is defined by once it becomes basic, and
`replaced` is a row in which a column is replaced by its definition. Each is described by lookups and
by its value.
-/

namespace SoftSimplex.Row

variable {row solved : Row Rat} {column other : Column} {e k : Rat}

/-! ### Solved rows -/

/-- The row that defines a column, if the given row is to be zero. -/
def solvedFor (row : Row Rat) (column : Column) : Row Rat :=
  ({ row with terms := row.terms.erase column } : Row Rat).scale (-(1 / row.coefficient column))

/-- The row that defines the entering column, if the given row defines the leaving one. -/
def pivoted (row : Row Rat) (entry exit : Column) : Row Rat :=
  { row.solvedFor entry with
    terms := (row.solvedFor entry).terms.insert exit (1 / row.coefficient entry) }

/-- A row that has a coefficient for a column can be solved for it. -/
theorem run_solveFor (found : row.terms.get? column = some k) (nonzero : k ≠ 0) :
    (solveFor column).run row = (.ok (1 / k), row.solvedFor column) := by
  simp [solveFor, found, Scalar.quotient?_of_ne_zero nonzero, solvedFor,
    coefficient_of_get? found]

theorem get?_solvedFor (row : Row Rat) (column other : Column) :
    (row.solvedFor column).terms.get? other =
      if column = other then none
      else (row.terms.get? other).map (· * -(1 / row.coefficient column)) := by
  rw [solvedFor, scale, Sorted.Map.get?_map, Sorted.Map.get?_erase]
  split <;> rfl

theorem contains_solvedFor :
    (row.solvedFor column).terms.contains other = true ↔
      other ≠ column ∧ row.terms.contains other = true := by
  rw [Sorted.Map.contains, get?_solvedFor]
  by_cases same : column = other
  · simp [same]
  · rw [if_neg same, Option.isSome_map]
    simp [Ne.symm same, Sorted.Map.contains]

@[simp] theorem constant_solvedFor (row : Row Rat) (column : Column) :
    (row.solvedFor column).constant = row.constant * -(1 / row.coefficient column) := rfl

theorem coefficient_solvedFor (row : Row Rat) (column other : Column) :
    (row.solvedFor column).coefficient other =
      if column = other then 0 else row.coefficient other * -(1 / row.coefficient column) := by
  rw [solvedFor, coefficient_scale, coefficient_erase, ite_mul, zero_mul]

theorem eval_solvedFor (nonzero : row.coefficient column ≠ 0) (σ : Column → Rat) :
    (row.solvedFor column).eval σ = σ column - row.eval σ / row.coefficient column := by
  rw [solvedFor, eval_scale, eval_erase]
  field_simp
  ring

theorem get?_pivoted (row : Row Rat) (entry exit other : Column) :
    (row.pivoted entry exit).terms.get? other =
      if exit = other then some (1 / row.coefficient entry)
      else (row.solvedFor entry).terms.get? other := by
  rw [pivoted, Sorted.Map.get?_insert]

/-- A row that is solved again stores no zero if it stored none. -/
theorem get?_pivoted_ne_zero {entry : Column} (mentioned : row.coefficient entry ≠ 0)
    (nonzero : ∀ c, row.terms.get? c ≠ some 0) (exit c : Column) :
    (row.pivoted entry exit).terms.get? c ≠ some 0 := by
  rw [get?_pivoted]
  split
  · simpa using mentioned
  · rw [get?_solvedFor]
    split
    · simp
    · cases present : row.terms.get? c with
      | none => simp
      | some k =>
          have kept : k ≠ 0 := by
            rintro rfl
            exact nonzero c present
          simpa using ⟨kept, mentioned⟩

@[simp] theorem constant_pivoted (row : Row Rat) (entry exit : Column) :
    (row.pivoted entry exit).constant = row.constant * -(1 / row.coefficient entry) := rfl

theorem coefficient_pivoted (row : Row Rat) (entry exit other : Column) :
    (row.pivoted entry exit).coefficient other =
      if exit = other then 1 / row.coefficient entry
      else (row.solvedFor entry).coefficient other := by
  rw [pivoted, coefficient_insert]

theorem eval_pivoted {entry exit : Column} (nonzero : row.coefficient entry ≠ 0)
    (apart : row.coefficient exit = 0) (σ : Column → Rat) :
    (row.pivoted entry exit).eval σ =
      σ entry - (row.eval σ - σ exit) / row.coefficient entry := by
  have zero : (row.solvedFor entry).coefficient exit = 0 := by
    rw [coefficient_solvedFor, apart, zero_mul, ite_self]
  rw [pivoted, eval_insert, eval_solvedFor nonzero, zero]
  field_simp
  ring

/-! ### Replacing a column -/

/-- One term of a replacement: what a row has for a column, and what is added to it. -/
def mixed (e multiplier : Rat) (old? added? : Option Rat) : Option Rat :=
  match old?, added? with
  | old?, none => old?
  | none, some added => some (multiplier * added)
  | some old, some added =>
    if Scalar.nearZero e (old + multiplier * added) then none else some (old + multiplier * added)

/-- A multiple of a term added to a row, dropping a term that comes out near zero. -/
def mixTerm (e multiplier : Rat) (row : Row Rat) (term : Column × Rat) : Row Rat :=
  match row.terms.get? term.1 with
  | none => { row with terms := row.terms.insert term.1 (multiplier * term.2) }
  | some old =>
    if Scalar.nearZero e (old + multiplier * term.2) then
      { row with terms := row.terms.erase term.1 }
    else { row with terms := row.terms.insert term.1 (old + multiplier * term.2) }

/-- A row in which a column is replaced by the row that defines it. -/
def replaced (e : Rat) (row : Row Rat) (column : Column) (solved : Row Rat) : Row Rat :=
  solved.terms.toList.foldl (mixTerm e (row.coefficient column))
    ⟨row.terms.erase column, row.constant + row.coefficient column * solved.constant⟩

@[simp] theorem constant_mixTerm (e multiplier : Rat) (row : Row Rat) (term : Column × Rat) :
    (mixTerm e multiplier row term).constant = row.constant := by
  unfold mixTerm
  split
  · rfl
  · split <;> rfl

theorem get?_mixTerm (e multiplier : Rat) (row : Row Rat) (term : Column × Rat) (other : Column) :
    (mixTerm e multiplier row term).terms.get? other =
      if term.1 = other then mixed e multiplier (row.terms.get? other) (some term.2)
      else row.terms.get? other := by
  unfold mixTerm
  cases found : row.terms.get? term.1 with
  | none =>
      simp only [Sorted.Map.get?_insert]
      by_cases same : term.1 = other
      · subst same
        simp [mixed, found]
      · simp [same]
  | some old =>
      by_cases same : term.1 = other
      · subst same
        simp only [mixed, found]
        split <;> simp
      · rw [if_neg same]
        dsimp only
        split
        · rw [Sorted.Map.get?_erase, if_neg same]
        · rw [Sorted.Map.get?_insert, if_neg same]

theorem get?_foldl_mixTerm (e multiplier : Rat) {terms : List (Column × Rat)}
    (sorted : Sorted.Increasing terms) (row : Row Rat) (other : Column) :
    (terms.foldl (mixTerm e multiplier) row).terms.get? other =
      mixed e multiplier (row.terms.get? other) (Sorted.Entries.get? other terms) := by
  induction terms generalizing row with
  | nil =>
      rw [List.foldl_nil, Sorted.Entries.get?]
      cases row.terms.get? other <;> rfl
  | cons term rest ih =>
      obtain ⟨key, value⟩ := term
      obtain ⟨below, sortedRest⟩ := List.pairwise_cons.1 sorted
      rw [List.foldl_cons, ih sortedRest, get?_mixTerm, Sorted.Entries.get?_cons sorted]
      by_cases same : key = other
      · subst same
        rw [Sorted.Entries.get?_eq_none_of_lt below, if_pos rfl, if_pos rfl]
        generalize mixed e multiplier (row.terms.get? key) (some value) = result
        cases result <;> rfl
      · rw [if_neg same, if_neg (Ne.symm same)]

theorem constant_replaced (e : Rat) (row : Row Rat) (column : Column) (solved : Row Rat) :
    (row.replaced e column solved).constant =
      row.constant + row.coefficient column * solved.constant := by
  have kept (terms : List (Column × Rat)) (start : Row Rat) :
      (terms.foldl (mixTerm e (row.coefficient column)) start).constant = start.constant := by
    induction terms generalizing start with
    | nil => rfl
    | cons term rest ih => rw [List.foldl_cons, ih, constant_mixTerm]
  exact kept _ _

/-- The terms of a row in which a column that its definition does not mention is replaced. -/
theorem get?_replaced (e : Rat) (row : Row Rat) (apart : solved.terms.get? column = none)
    (other : Column) :
    (row.replaced e column solved).terms.get? other =
      if column = other then none
      else mixed e (row.coefficient column) (row.terms.get? other)
        (solved.terms.get? other) := by
  rw [replaced, get?_foldl_mixTerm _ _ solved.terms.increasing, Sorted.Map.get?_erase]
  by_cases same : column = other
  · subst same
    rw [if_pos rfl, if_pos rfl]
    change mixed e _ none (solved.terms.get? column) = none
    rw [apart]
    rfl
  · rw [if_neg same, if_neg same]
    rfl

/-- Nothing new is mentioned in a replacement but what the definition mentions. -/
theorem contains_of_contains_replaced {row : Row Rat} (apart : solved.terms.get? column = none)
    (mentioned : (row.replaced e column solved).terms.contains other = true) :
    column ≠ other ∧
      (row.terms.contains other = true ∨ solved.terms.contains other = true) := by
  simp only [Sorted.Map.contains, get?_replaced e row apart] at mentioned ⊢
  split at mentioned
  · cases mentioned
  · next different =>
      refine ⟨different, ?_⟩
      cases old : row.terms.get? other with
      | some a => exact .inl rfl
      | none =>
          cases added : solved.terms.get? other with
          | some b => exact .inr rfl
          | none => simp [old, added, mixed] at mentioned

/-- A replacement stores no zero if neither row does. -/
theorem ne_zero_of_get?_replaced {row : Row Rat} (nonnegative : 0 ≤ e)
    (apart : solved.terms.get? column = none) (multiplier : row.coefficient column ≠ 0)
    (first : row.terms.get? other ≠ some 0) (second : solved.terms.get? other ≠ some 0) :
    (row.replaced e column solved).terms.get? other ≠ some 0 := by
  rw [get?_replaced e row apart]
  split
  · simp
  · cases old : row.terms.get? other with
    | none =>
        cases added : solved.terms.get? other with
        | none => simp [mixed]
        | some b =>
            have nonzero : b ≠ 0 := fun zero => second (by rw [added, zero])
            simp [mixed, multiplier, nonzero]
    | some a =>
        cases added : solved.terms.get? other with
        | none =>
            rw [old] at first
            simpa [mixed] using first
        | some b =>
            simp only [mixed]
            split
            · simp
            · next far =>
                intro zero
                rw [Option.some.inj zero] at far
                exact far (by simpa [Scalar.nearZero] using nonnegative)

theorem coefficient_replaced (row : Row Rat) (apart : solved.terms.get? column = none)
    (other : Column) :
    (row.replaced 0 column solved).coefficient other =
      if column = other then 0
      else row.coefficient other + row.coefficient column * solved.coefficient other := by
  rw [coefficient, get?_replaced 0 row apart]
  split
  · rfl
  · simp only [coefficient]
    cases row.terms.get? other with
    | none => cases solved.terms.get? other <;> simp [mixed]
    | some a =>
        cases solved.terms.get? other with
        | none => simp [mixed]
        | some b =>
            simp only [mixed]
            split
            · next near => exact ((Scalar.nearZero_zero _).1 near).symm
            · simp

/-- A replacement changes the value by as much as the definition is off. -/
theorem eval_replaced (row : Row Rat) (apart : solved.terms.get? column = none)
    (σ : Column → Rat) :
    (row.replaced 0 column solved).eval σ =
      row.eval σ + row.coefficient column * (solved.eval σ - σ column) := by
  have erased := eval_erase row column σ
  have zero : solved.coefficient column = 0 := coefficient_of_get?_none apart
  have sum := eval_combine (row.replaced 0 column solved)
    { row with terms := row.terms.erase column } solved (row.coefficient column)
    (constant_replaced 0 row column solved)
    (fun c => by
      rw [coefficient_replaced row apart, coefficient_erase]
      split
      · next same => rw [← same, zero, mul_zero, add_zero]
      · rfl) σ
  rw [sum, erased]
  ring

/-! ### Replacing a column where it is mentioned -/

/-- A row in which a column is replaced, if it is mentioned. -/
def substituted (e : Rat) (row : Row Rat) (column : Column) (solved : Row Rat) : Row Rat :=
  if row.terms.contains column then row.replaced e column solved else row

theorem contains_of_contains_substituted {row : Row Rat} (apart : solved.terms.get? column = none)
    (mentioned : (row.substituted e column solved).terms.contains other = true) :
    column ≠ other ∧
      (row.terms.contains other = true ∨ solved.terms.contains other = true) := by
  unfold substituted at mentioned
  split at mentioned
  · exact contains_of_contains_replaced apart mentioned
  · next absent => exact ⟨fun same => absent (same ▸ mentioned), .inl mentioned⟩

theorem ne_zero_of_get?_substituted {row : Row Rat} (nonnegative : 0 ≤ e)
    (apart : solved.terms.get? column = none) (first : ∀ c, row.terms.get? c ≠ some 0)
    (second : ∀ c, solved.terms.get? c ≠ some 0) (other : Column) :
    (row.substituted e column solved).terms.get? other ≠ some 0 := by
  unfold substituted
  split
  · next present =>
      obtain ⟨k, found⟩ := Sorted.Map.contains_iff.1 present
      refine ne_zero_of_get?_replaced nonnegative apart ?_ (first other) (second other)
      rw [coefficient_of_get? found]
      rintro rfl
      exact first column found
  · exact first other

theorem coefficient_substituted (row : Row Rat) (apart : solved.terms.get? column = none)
    (other : Column) :
    (row.substituted 0 column solved).coefficient other =
      if column = other then 0
      else row.coefficient other + row.coefficient column * solved.coefficient other := by
  unfold substituted
  split
  · exact coefficient_replaced row apart other
  · next absent =>
      have zero := coefficient_of_not_contains (Bool.eq_false_iff.2 absent)
      rw [zero, zero_mul, add_zero]
      split
      · next same => rw [← same, zero]
      · rfl

/-- Replacing a column changes the value by as much as its definition is off. -/
theorem eval_substituted (row : Row Rat) (apart : solved.terms.get? column = none)
    (σ : Column → Rat) :
    (row.substituted 0 column solved).eval σ =
      row.eval σ + row.coefficient column * (solved.eval σ - σ column) := by
  unfold substituted
  split
  · exact eval_replaced row apart σ
  · next absent =>
      rw [coefficient_of_not_contains (Bool.eq_false_iff.2 absent), zero_mul, add_zero]

end SoftSimplex.Row
