import SoftSimplex.Proofs.Simplex.Frame
import SoftSimplex.Proofs.Tableau.Parametrization

/-!
Putting a row into the tableau.

A row that is put in becomes one more equation (`Inserted`): at once, solved for a column that can become
basic (`Insertable.introduce`), or through an artificial column that the first phase brings to zero. The
row is refused exactly if no admissible assignment holds at which it is zero, as long as the tableau is
shaped (`insertion_insertRow`). A steady tableau stays steady, and its dummies stay where they are; a row that
is zero at the basic solution moves nothing at all.
-/

namespace SoftSimplex

namespace Tableau

variable {t t' : Tableau Rat} {row other : Row Rat} {column key c : Column} {σ : Column → Rat}

/-- A row can be put into a tableau: it is in terms of columns outside the basis, stores no zero, has a
marker, and its constant is not negative. -/
structure Insertable (t : Tableau Rat) (row : Row Rat) : Prop extends t.Parametric row where
  marked : ∃ c, row.terms.contains c = true
  nonneg : 0 ≤ row.constant

/-- A column that only objectives mention. -/
structure Unused (t : Tableau Rat) (c : Column) : Prop where
  outside : t.rows.get? c = none
  unmentioned : ∀ key, key.isObjective = false → ¬t.Mentions key c

/-- A row has become one more equation of a tableau. -/
structure Inserted (t : Tableau Rat) (row : Row Rat) (t' : Tableau Rat) : Prop extends t'.Exact where
  holds : ∀ σ, t'.Holds σ ↔ t.Holds σ ∧ row.eval σ = 0
  scope : ∀ c, c ∈ t'.scope ↔ c ∈ t.scope ∨ row.terms.contains c = true
  objectives : ∀ c, c.isObjective = true → (t'.rows.get? c).isSome = (t.rows.get? c).isSome
  /-- No unknown of the caller leaves the basis, and one of those in the row enters it. -/
  externals : ∀ c, c.isExternal = true → (t.rows.get? c).isSome → (t'.rows.get? c).isSome
  entered : (∃ c, c.isExternal = true ∧ row.terms.contains c = true) →
    ∃ c, c.isExternal = true ∧ row.terms.contains c = true ∧ (t'.rows.get? c).isSome
  recorded : t.Recorded → t'.Recorded
  retains : t.Steady → t.Retains t'
  /-- A row that is zero at the basic solution moves nothing. -/
  still : t.Feasible → row.constant = 0 → t'.basicSolution = t.basicSolution

theorem Inserted.shaped (inserted : t.Inserted row t') (shaped : t.Shaped) : t'.Shaped :=
  (inserted.retains shaped.steady).shaped shaped

/-! ### Rows that enter at once -/

theorem Parametric.coefficient_ne_zero (parametric : t.Parametric row)
    (present : row.terms.contains column = true) : row.coefficient column ≠ 0 := by
  obtain ⟨k, found⟩ := Sorted.Map.contains_iff.1 present
  rw [Row.coefficient_of_get? found]
  rintro rfl
  exact parametric.nonzero column found

theorem Parametric.definable (parametric : t.Parametric row)
    (present : row.terms.contains column = true) :
    t.Definable column (row.solvedFor column) where
  absent := parametric.nonbasic column present
  nonzero c := by
    rw [Row.get?_solvedFor]
    split
    · simp
    · cases found : row.terms.get? c with
      | none => simp
      | some k =>
          have own : k ≠ 0 := by
            rintro rfl
            exact parametric.nonzero c found
          simpa using ⟨own, parametric.coefficient_ne_zero present⟩
  apart := by rw [Row.get?_solvedFor, if_pos rfl]
  noObjective c inRow := parametric.plain c (Row.contains_solvedFor.1 inRow).2
  nonbasic c inRow := parametric.nonbasic c (Row.contains_solvedFor.1 inRow).2

section

variable (insertable : t.Insertable row) (exact : t.Exact)
  (present : row.terms.contains column = true)
include insertable exact present

/-- A row that is zero at the basic solution moves nothing. -/
theorem Insertable.basicSolution_introduce_of_zero (zero : row.constant = 0) :
    (t.introduce column (row.solvedFor column)).basicSolution = t.basicSolution := by
  rw [exact.basicSolution_introduce (insertable.definable present), Row.constant_solvedFor, zero,
    zero_mul, ray_zero]

variable
  (direct : column.isExternal = true ∨ ∀ c, row.terms.contains c = true → c.isExternal = false)
  (dummies : column.isDummy = true →
    row.constant = 0 ∧ ∀ c, row.terms.contains c = true → c.isDummy = true)
  (nonneg : column.isRestricted = true → 0 ≤ (row.solvedFor column).constant)
  (stays : ∀ key, key.isRestricted = true → t.Mentions key column →
    column.isExternal = true ∨ row.constant = 0)

include stays in
/-- Among the restricted columns only the one that enters moves. -/
theorem Insertable.basicSolution_introduce_of_ne (sheltered : t.Sheltered)
    (restricted : key.isRestricted = true) (different : key ≠ column) :
    (t.introduce column (row.solvedFor column)).basicSolution key = t.basicSolution key := by
  by_cases mentioned : t.Mentions key column
  · rcases stays key restricted mentioned with external | zero
    · rw [sheltered key column restricted mentioned] at external
      cases external
    · rw [insertable.basicSolution_introduce_of_zero exact present zero]
  · rw [exact.basicSolution_introduce (insertable.definable present),
      ray_of_unmentioned mentioned different]

include direct dummies nonneg stays

/-- A steady tableau stays steady when a row enters, and keeps its dummies where they are. -/
theorem Insertable.retains_introduce (steady : t.Steady) :
    t.Retains (t.introduce column (row.solvedFor column)) := by
  have definable := insertable.definable present
  have unmoved {c : Column} (restricted : c.isRestricted = true) (different : c ≠ column) :
      (t.introduce column (row.solvedFor column)).basicSolution c = t.basicSolution c :=
    insertable.basicSolution_introduce_of_ne exact present stays steady.sheltered restricted different
  refine ⟨⟨?_, ?_, upright_iff.2 fun c restricted => ?_⟩, fun c dummy => ?_⟩
  · refine steady.sheltered.introduce exact.toWellFormed definable fun internal c inSolved => ?_
    rcases direct with external | none
    · rw [external] at internal
      cases internal
    · exact none c (Row.contains_solvedFor.1 inSolved).2
  · exact steady.insulated.introduce exact.toWellFormed definable fun dummy c inSolved =>
      (dummies dummy).2 c (Row.contains_solvedFor.1 inSolved).2
  · by_cases same : c = column
    · subst same
      rw [exact.basicSolution_introduce definable, ray_self (insertable.nonbasic c present)]
      exact nonneg restricted
    · rw [unmoved restricted same]
      exact steady.upright.nonneg restricted
  · by_cases same : c = column
    · rw [insertable.basicSolution_introduce_of_zero exact present (dummies (same ▸ dummy)).1]
    · exact unmoved (Column.restricted_of_dummy dummy) same

/-- A row enters solved for a column, if the restricted columns whose rows mention it stay. -/
theorem Insertable.introduce : t.Inserted row (t.introduce column (row.solvedFor column)) := by
  have definable := insertable.definable present
  have nonzero := insertable.coefficient_ne_zero present
  have basic := get?_introduce exact.toWellFormed exact.exact column (row.solvedFor column)
  refine
    { toExact := exact.introduce definable
      holds := fun σ => ?_
      scope := fun c => ?_
      objectives := fun c objective => ?_
      externals := fun c _ inside => ?_
      entered := ?_
      recorded := fun recorded key member => ?_
      retains := insertable.retains_introduce exact present direct dummies nonneg stays
      still := fun _ => insertable.basicSolution_introduce_of_zero exact present }
  · rw [exact.holds_introduce definable, Row.eval_solvedFor nonzero]
    refine and_congr_right fun _ => ?_
    constructor
    · intro own
      have zero : row.eval σ / row.coefficient column = 0 := by linarith
      exact (div_eq_zero_iff.1 zero).resolve_right nonzero
    · intro zero
      rw [zero, zero_div, sub_zero]
  · rw [exact.mem_scope_introduce definable, Row.contains_solvedFor]
    by_cases same : c = column
    · subst same
      simp [present]
    · simp only [same, false_or, ne_eq, not_false_eq_true, true_and]
      exact or_comm
  · have different : column ≠ c := by
      rintro rfl
      rw [insertable.plain column present] at objective
      cases objective
    rw [basic, if_neg different, Option.isSome_map]
  · rw [basic]
    split
    · rfl
    · rwa [Option.isSome_map]
  · rintro ⟨c, external, inRow⟩
    refine ⟨column, direct.resolve_right fun none => ?_, present, ?_⟩
    · rw [none c inRow] at external
      cases external
    · rw [basic, if_pos rfl]
      rfl
  · rcases (mem_infeasible_introduce exact.toWellFormed exact.exact _ _ key).1 member with
      ⟨_, -, -, violates⟩ | before
    · exact violates.1
    · exact recorded key before

end

/-- A row enters solved for an unknown of the caller. -/
theorem Insertable.introduce_external (insertable : t.Insertable row) (exact : t.Exact)
    (present : row.terms.contains column = true) (external : column.isExternal = true) :
    t.Inserted row (t.introduce column (row.solvedFor column)) := by
  have unrestricted : column.isRestricted = false := by
    cases column with
    | external v => rfl
    | symbol s => cases external
  refine insertable.introduce exact present (.inl external) (fun dummy => ?_) (fun restricted => ?_)
    fun _ _ _ => .inl external
  · rw [Column.restricted_of_dummy dummy] at unrestricted
    cases unrestricted
  · rw [restricted] at unrestricted
    cases unrestricted

/-- A row without unknowns of the caller enters solved for an unused slack that it subtracts. -/
theorem Insertable.introduce_slack (insertable : t.Insertable row) (exact : t.Exact)
    (internal : ∀ c, row.terms.contains c = true → c.isExternal = false)
    (slack : column.isSlack = true) (negative : row.coefficient column < 0)
    (unused : t.Unused column) : t.Inserted row (t.introduce column (row.solvedFor column)) := by
  have pivotable := Column.pivotable_of_slack slack
  refine insertable.introduce exact (Row.contains_of_coefficient negative.ne) (.inr internal)
    (fun dummy => ?_) (fun _ => ?_) fun key restricted mentioned =>
      absurd mentioned (unused.unmentioned key (Column.not_objective_of_restricted restricted))
  · rw [Column.not_pivotable_of_dummy dummy] at pivotable
    cases pivotable
  · rw [Row.constant_solvedFor]
    exact mul_nonneg insertable.nonneg (neg_nonneg.2 (one_div_neg.2 negative).le)

/-- A row of dummies whose constant is zero enters solved for any of them. -/
theorem Insertable.introduce_dummy (insertable : t.Insertable row) (exact : t.Exact)
    (present : row.terms.contains column = true)
    (dummies : ∀ c, row.terms.contains c = true → c.isDummy = true) (zero : row.constant = 0) :
    t.Inserted row (t.introduce column (row.solvedFor column)) := by
  refine insertable.introduce exact present
    (.inr fun c inRow => Column.not_external_of_restricted
      (Column.restricted_of_dummy (dummies c inRow)))
    (fun _ => ⟨zero, dummies⟩) (fun _ => ?_) fun _ _ _ => .inr zero
  rw [Row.constant_solvedFor, zero, zero_mul]

end Tableau

end SoftSimplex
