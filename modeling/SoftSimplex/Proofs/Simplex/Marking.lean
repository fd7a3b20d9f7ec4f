import SoftSimplex.Proofs.Posed.Represents
import SoftSimplex.Proofs.Simplex.Adding
import SoftSimplex.Proofs.Tableau.Parametrization

/-!
The rows of posed constraints.

A constraint enters a tableau as its residual in terms of columns outside the basis (`reduced`), with its
own columns added (`Markers.mark`) and turned so that the constant is not negative. The row is zero exactly
where the constraint and its columns satisfy their equation (`Expresses.eval_mark`).
-/

namespace SoftSimplex

namespace Row

variable {row : Row Rat} {terms : List (Column × Rat)} {c : Column}

/-- The row with more terms. -/
def insertAll (terms : List (Column × Rat)) (row : Row Rat) : Row Rat :=
  { row with terms := terms.foldl (fun terms term => terms.insert term.1 term.2) row.terms }

theorem insertAll_cons (term : Column × Rat) (rest : List (Column × Rat)) (row : Row Rat) :
    insertAll (term :: rest) row =
      insertAll rest { row with terms := row.terms.insert term.1 term.2 } := rfl

theorem contains_insertAll : (insertAll terms row).terms.contains c = true ↔
    c ∈ terms.map (·.1) ∨ row.terms.contains c = true := by
  induction terms generalizing row with
  | nil => simp [insertAll]
  | cons term rest ih =>
      rw [insertAll_cons, ih, Sorted.Map.contains, Sorted.Map.get?_insert, List.map_cons,
        List.mem_cons, Sorted.Map.contains]
      split
      · next same => simp [same]
      · next different => simp [Ne.symm different]

theorem get?_insertAll_ne_zero (nonzero : ∀ term ∈ terms, term.2 ≠ 0)
    (before : ∀ c, row.terms.get? c ≠ some 0) (c : Column) :
    (insertAll terms row).terms.get? c ≠ some 0 := by
  induction terms generalizing row with
  | nil => exact before c
  | cons term rest ih =>
      rw [insertAll_cons]
      refine ih (fun other member => nonzero other (List.mem_cons_of_mem _ member)) fun d => ?_
      rw [Sorted.Map.get?_insert]
      split
      · exact fun zero => nonzero term List.mem_cons_self (Option.some.inj zero)
      · exact before d

/-- Terms of new columns add their values. -/
theorem eval_insertAll (nodup : (terms.map (·.1)).Nodup)
    (new : ∀ term ∈ terms, row.coefficient term.1 = 0) (σ : Column → Rat) :
    (insertAll terms row).eval σ =
      row.eval σ + (terms.map fun term => term.2 * σ term.1).sum := by
  induction terms generalizing row with
  | nil => simp [insertAll]
  | cons term rest ih =>
      obtain ⟨different, nodupRest⟩ := List.nodup_cons.1 nodup
      rw [insertAll_cons, ih nodupRest, eval_insert, new term List.mem_cons_self, List.map_cons,
        List.sum_cons]
      · ring
      · intro other member
        have apart : term.1 ≠ other.1 := fun same =>
          different (List.mem_map.2 ⟨other, member, same.symm⟩)
        rw [coefficient_insert, if_neg apart]
        exact new other (List.mem_cons_of_mem _ member)

end Row

namespace Markers

variable {m : Markers Rat} {comparator : Comparator}

/-- The row of a constraint with the columns of the constraint. -/
def mark (m : Markers Rat) (row : Row Rat) : Row Rat := Row.insertAll m.terms row

theorem terms_ne_zero (m : Markers Rat) (term : Column × Rat) (member : term ∈ m.terms) :
    term.2 ≠ 0 := by
  unfold terms at member
  split at member
  · rw [List.mem_singleton.1 member]
    exact one_ne_zero
  · rcases List.mem_cons.1 member with rfl | sub
    · exact neg_ne_zero.2 one_ne_zero
    · obtain ⟨c, -, rfl⟩ := List.mem_map.1 sub
      dsimp only
      split
      · exact neg_ne_zero.2 one_ne_zero
      · exact one_ne_zero

end Markers

namespace Simplex

variable {row : Row Rat} {c : Column} {σ : Column → Rat}

theorem contains_oriented : (oriented row).terms.contains c = row.terms.contains c := by
  unfold oriented
  split
  · exact Row.contains_scale
  · rfl

theorem get?_oriented_ne_zero (nonzero : row.terms.get? c ≠ some 0) :
    (oriented row).terms.get? c ≠ some 0 := by
  unfold oriented
  split
  · rw [Row.scale, Sorted.Map.get?_map]
    intro zero
    obtain ⟨k, found, scaled⟩ := Option.map_eq_some_iff.1 zero
    have same : k = 0 := by linarith
    exact nonzero (same ▸ found)
  · exact nonzero

theorem constant_oriented_nonneg (row : Row Rat) : 0 ≤ (oriented row).constant := by
  unfold oriented
  split
  · next negative =>
      rw [Row.constant_scale]
      linarith
  · next nonneg => exact not_lt.1 nonneg

theorem exists_eval_oriented (row : Row Rat) : ∃ sign : Rat, (sign = 1 ∨ sign = -1) ∧
    ∀ σ, (oriented row).eval σ = sign * row.eval σ := by
  unfold oriented
  split
  · exact ⟨-1, .inr rfl, fun σ => (Row.eval_scale _ _ _).trans (mul_comm _ _)⟩
  · exact ⟨1, .inl rfl, fun σ => (one_mul _).symm⟩

end Simplex

namespace Tableau

variable {t : Tableau Rat} {constraint : Constraint Rat} {row : Row Rat} {column c : Column}
  {p : Posed} {k : Rat}

/-- The residual row of a constraint in terms of columns outside the basis. -/
def reduced (t : Tableau Rat) (constraint : Constraint Rat) : Row Rat :=
  t.parametrize (t.purge (Row.residual constraint))

/-- A row has the value of a constraint's residual where a tableau holds, and is in terms of columns
outside the basis that are unknowns of the caller or known to the tableau. -/
structure Expresses (t : Tableau Rat) (constraint : Constraint Rat) (row : Row Rat) : Prop
    extends t.Parametric row where
  known : ∀ c, row.terms.contains c = true → c.isExternal = true ∨ c ∈ t.scope
  value : ∀ σ, t.Holds σ → row.eval σ = (Row.residual constraint).eval σ

section

variable (wf : t.WellFormed) (constraint : Constraint Rat)
include wf

/-- A residual mentions unknowns of the caller only. -/
theorem WellFormed.external_of_contains_residual
    (present : (t.purge (Row.residual constraint)).terms.contains c = true) :
    c.isExternal = true := by
  cases c with
  | external v => rfl
  | symbol s =>
      have stored := wf.contains_of_contains_purge present
      rw [Sorted.Map.contains, Row.get?_residual_symbol] at stored
      cases stored

theorem WellFormed.parametric_reduced : t.Parametric (t.reduced constraint) :=
  wf.parametric_parametrize fun _ present =>
    Column.not_objective_of_external (wf.external_of_contains_residual constraint present)

theorem WellFormed.known_reduced (c : Column)
    (present : (t.reduced constraint).terms.contains c = true) :
    c.isExternal = true ∨ c ∈ t.scope :=
  (wf.contains_parametrize present).2.imp (wf.external_of_contains_residual constraint)
    fun ⟨_, mentioned⟩ => wf.mem_scope_of_mentions mentioned

end

theorem Exact.expresses_reduced (exact : t.Exact) (constraint : Constraint Rat) :
    t.Expresses constraint (t.reduced constraint) where
  toParametric := exact.parametric_reduced constraint
  known := exact.known_reduced constraint
  value σ holds := by
    rw [reduced, exact.eval_parametrize holds, purge_eq exact.exact, Row.eval_purge]

/-- Adding to the objective leaves rows of constraints alone. -/
theorem Expresses.addToObjective (expresses : t.Expresses constraint row) (exact : t.Exact)
    (stored : (t.rows.get? .objective).isSome) (plain : column.isObjective = false) :
    (t.addToObjective column k .objective).Expresses constraint row := by
  obtain ⟨goal, found⟩ := Option.isSome_iff_exists.1 stored
  have different : column ≠ .objective := by
    rintro rfl
    cases plain
  have ne : ∀ c, row.terms.contains c = true → c ≠ .objective := by
    rintro c present rfl
    cases expresses.plain _ present
  refine ⟨⟨expresses.nonzero, fun c present => ?_, expresses.plain⟩, fun c present => ?_,
    fun σ holds => ?_⟩
  · rw [(exact.apart_addToObjective found plain k).others c (ne c present)]
    exact expresses.nonbasic c present
  · exact (expresses.known c present).imp_right
      (exact.mem_addToObjective_of_mem_scope found plain k)
  · have value := expresses.value _ ((exact.holds_addToObjective found plain different k).1 holds)
    have inRow : row.coefficient .objective = 0 :=
      by_contra fun nonzero => ne _ (Row.contains_of_coefficient nonzero) rfl
    have inResidual : (Row.residual constraint).coefficient .objective = 0 :=
      Row.coefficient_of_get?_none (Row.get?_residual_symbol constraint _)
    rwa [Row.eval_update_assignment, Row.eval_update_assignment, inRow, inResidual, zero_mul,
      add_zero, add_zero] at value

theorem Expresses.penalized (expresses : t.Expresses constraint row) (exact : t.Exact)
    (stored : (t.rows.get? .objective).isSome) {errors : List Column}
    (plain : ∀ c ∈ errors, c.isObjective = false) (weight : Rat) :
    (t.penalized weight errors).Expresses constraint row := by
  induction errors generalizing t with
  | nil => exact expresses
  | cons error rest ih =>
      obtain ⟨goal, found⟩ := Option.isSome_iff_exists.1 stored
      have own := plain error List.mem_cons_self
      exact ih (expresses.addToObjective exact stored own) (exact.addToObjective found own weight)
        (exact.apart_addToObjective found own weight).stored
        fun c member => plain c (List.mem_cons_of_mem _ member)

/-- The row with the columns of a constraint is what an assignment misses of it by these columns. -/
theorem Expresses.eval_mark (expresses : t.Expresses p.constraint row) (fits : p.Fits)
    (unmoved : p.shift = 0) (new : ∀ c ∈ p.columns, row.terms.contains c = false)
    {σ : Column → Rat} (holds : t.Holds σ) :
    (p.markers.mark row).eval σ = p.gap (onVariables σ) + p.offset σ := by
  rw [Posed.gap_of_unmoved unmoved, ← expresses.value σ holds]
  refine Row.eval_insertAll ?_ (fun term member => ?_) σ
  · rw [Markers.map_terms_eq_columns]
    exact Markers.Fits.nodup fits
  · exact Row.coefficient_of_not_contains (new term.1 (Posed.mem_columns_of_term member))

/-- A row with the columns of a constraint can be put in, if none of them is basic. -/
theorem Parametric.insertable (parametric : t.Parametric row) (fits : p.Fits)
    (outside : ∀ c ∈ p.columns, t.rows.get? c = none) :
    t.Insertable (Simplex.oriented (p.markers.mark row)) := by
  have source : ∀ c, (Simplex.oriented (p.markers.mark row)).terms.contains c = true →
      c ∈ p.columns ∨ row.terms.contains c = true := by
    intro c present
    rwa [Simplex.contains_oriented, Markers.mark, Row.contains_insertAll,
      Markers.map_terms_eq_columns] at present
  refine ⟨⟨fun c => ?_, fun c present => ?_, fun c present => ?_⟩, ⟨p.markers.main, ?_⟩,
    Simplex.constant_oriented_nonneg _⟩
  · exact Simplex.get?_oriented_ne_zero
      (Row.get?_insertAll_ne_zero p.markers.terms_ne_zero parametric.nonzero c)
  · exact (source c present).elim (outside c) (parametric.nonbasic c)
  · exact (source c present).elim (fun own => Column.not_objective_of_restricted
      (Markers.Fits.restricted fits own)) (parametric.plain c)
  · rw [Simplex.contains_oriented, Markers.mark, Row.contains_insertAll,
      Markers.map_terms_eq_columns]
    exact .inl p.markers.main_mem_columns

end Tableau

namespace Simplex

variable {s : Simplex Rat}

/-- Terms that cannot be told from zero are taken out of a row without changing anything. -/
theorem run_purged (wf : s.tableau.WellFormed) (row : Row Rat) :
    (purged row).run s = (.ok (s.tableau.purge row), s) := by
  obtain ⟨e, tolerance, -⟩ := wf.tolerant
  rw [purged, Step.run_bind_get, Row.isNumeric_rat, Step.ensure_true, Step.run_bind_pureStep,
    tolerance]
  simp only [Option.isNone_some, Bool.false_and, Bool.false_eq_true, if_false]
  rfl

/-- The residual row of a constraint is found without changing anything. -/
theorem run_residualRow (wf : s.tableau.WellFormed) (c : Constraint Rat) :
    (residualRow c).run s = (.ok (s.tableau.reduced c), s) := by
  rw [residualRow, Step.run_bind_of_ok (run_purged wf _), Step.run_bind_get]
  dsimp only
  rw [Row.isNumeric_rat, Step.ensure_true, Step.run_bind_pureStep]
  rfl

end Simplex

end SoftSimplex
