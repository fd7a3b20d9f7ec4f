import SoftSimplex.Proofs.Column.Kinds
import SoftSimplex.Proofs.Row.Residual
import SoftSimplex.Proofs.Tableau.Shape
import SoftSimplex.Solver

/-!
Constraints as equations over columns.

The residual of a constraint and its columns add up to zero (`Posed.Equation`). A required constraint is
met where its columns are admissible (`met_iff_admissible`), and the error columns of an optional one
take up at least what is missing (`penalty_le_cost`), and exactly that much if they are placed well
(`equation_and_cost_of_placed`). What a refused equation leaves in a tableau is posed as well: one of its
sides, with its dummy beside the column that takes up what is missing.
-/

namespace SoftSimplex

open Tableau (Admissible)

namespace Markers

/-- The columns of a constraint with their coefficients in its row. -/
def terms (m : Markers Rat) : List (Column × Rat) :=
  if m.sub = some m.main then [(m.main, 1)]
  else (m.main, -1) :: m.sub.toList.map fun column => (column, if m.main.isDummy then -1 else 1)

/-- The kinds of columns that mark a constraint: a dummy for a required equation and a slack for a
required inequality; two errors for an optional equation, and a slack and an error for an optional
inequality. A side of a refused equation, which is not required any more, has a pivotable column and a
dummy, and which of them comes first says with which sign the dummy enters. -/
inductive Fits (priority : Priority) : Comparator → Markers Rat → Prop where
  | equation {dummy : Column} (isDummy : dummy.isDummy = true) :
      Fits priority .eq { main := dummy, sub := some dummy }
  | wishedEquation {plus minus : Column} {weight : Rat} (plusIsSlack : plus.isSlack = true)
      (minusIsSlack : minus.isSlack = true) (apart : minus ≠ plus) :
      Fits priority .eq
        { main := plus, sub := some minus, errors := [plus, minus], weight := some weight }
  | bound {comparator : Comparator} {slack : Column} (unequal : comparator ≠ .eq)
      (isSlack : slack.isSlack = true) : Fits priority comparator { main := slack }
  | wishedBound {comparator : Comparator} {slack error : Column} {weight : Rat}
      (unequal : comparator ≠ .eq) (isSlack : slack.isSlack = true)
      (errorPivotable : error.isPivotable = true) (apart : error ≠ slack) :
      Fits priority comparator
        { main := slack, sub := some error, errors := [error], weight := some weight }
  | side {comparator : Comparator} {missing dummy : Column} (lenient : priority ≠ .required)
      (unequal : comparator ≠ .eq) (pivotable : missing.isPivotable = true)
      (isDummy : dummy.isDummy = true) :
      Fits priority comparator { main := missing, sub := some dummy }
  | turnedSide {comparator : Comparator} {missing dummy : Column} (lenient : priority ≠ .required)
      (unequal : comparator ≠ .eq) (pivotable : missing.isPivotable = true)
      (isDummy : dummy.isDummy = true) :
      Fits priority comparator { main := dummy, sub := some missing }

variable {m : Markers Rat} {priority : Priority} {comparator : Comparator} {c : Column}

section

variable {main sub : Column} {errors : List Column} {weight : Option Rat}

theorem columns_same : (⟨main, some main, errors, weight⟩ : Markers Rat).columns = [main] :=
  if_pos rfl

theorem columns_single : (⟨main, none, errors, weight⟩ : Markers Rat).columns = [main] := rfl

theorem columns_pair (apart : sub ≠ main) :
    (⟨main, some sub, errors, weight⟩ : Markers Rat).columns = [main, sub] := if_neg apart

theorem terms_same : (⟨main, some main, errors, weight⟩ : Markers Rat).terms = [(main, 1)] :=
  if_pos rfl

theorem terms_single : (⟨main, none, errors, weight⟩ : Markers Rat).terms = [(main, -1)] := rfl

theorem terms_pair (apart : sub ≠ main) (plain : main.isDummy = false) :
    (⟨main, some sub, errors, weight⟩ : Markers Rat).terms = [(main, -1), (sub, 1)] := by
  rw [terms, if_neg (by simpa using apart)]
  simp [plain]

theorem terms_pair_of_dummy (apart : sub ≠ main) (dummy : main.isDummy = true) :
    (⟨main, some sub, errors, weight⟩ : Markers Rat).terms = [(main, -1), (sub, -1)] := by
  rw [terms, if_neg (by simpa using apart)]
  simp [dummy]

end

theorem ne_of_dummy {missing dummy : Column} (pivotable : missing.isPivotable = true)
    (isDummy : dummy.isDummy = true) : dummy ≠ missing := by
  rintro rfl
  rw [Column.not_pivotable_of_dummy isDummy] at pivotable
  cases pivotable

theorem map_terms_eq_columns (m : Markers Rat) : m.terms.map (·.1) = m.columns := by
  unfold terms columns
  cases m.sub with
  | none => rfl
  | some sub =>
      by_cases same : sub = m.main
      · simp [same]
      · simp [same]

theorem Fits.nodup (fits : Fits priority comparator m) : m.columns.Nodup := by
  cases fits with
  | equation _ => simp [columns_same]
  | wishedEquation _ _ apart => simp [columns_pair apart, Ne.symm apart]
  | bound _ _ => simp [columns_single]
  | wishedBound _ _ _ apart => simp [columns_pair apart, Ne.symm apart]
  | side _ _ pivotable isDummy =>
      have apart := ne_of_dummy pivotable isDummy
      simp [columns_pair apart, Ne.symm apart]
  | turnedSide _ _ pivotable isDummy =>
      have apart := ne_of_dummy pivotable isDummy
      simp [columns_pair (Ne.symm apart), apart]

theorem main_mem_columns (m : Markers Rat) : m.main ∈ m.columns := by
  unfold columns
  cases m.sub with
  | none => exact List.mem_singleton_self _
  | some sub =>
      dsimp only
      split
      · exact List.mem_singleton_self _
      · exact List.mem_cons_self

/-- Only required equations and what is left of refused ones have dummies; all other columns are
pivotable. -/
theorem Fits.pivotable_or_dummy (fits : Fits priority comparator m) (own : c ∈ m.columns) :
    c.isPivotable = true ∨
      (c.isDummy = true ∧ m.weight = none ∧ (priority = .required → comparator = .eq)) := by
  cases fits with
  | equation isDummy =>
      rw [columns_same, List.mem_singleton] at own
      exact .inr ⟨own ▸ isDummy, rfl, fun _ => rfl⟩
  | wishedEquation plusIsSlack minusIsSlack apart =>
      rw [columns_pair apart, List.mem_pair] at own
      rcases own with rfl | rfl
      · exact .inl (Column.pivotable_of_slack plusIsSlack)
      · exact .inl (Column.pivotable_of_slack minusIsSlack)
  | bound _ isSlack =>
      rw [columns_single, List.mem_singleton] at own
      exact .inl (own ▸ Column.pivotable_of_slack isSlack)
  | wishedBound _ isSlack errorPivotable apart =>
      rw [columns_pair apart, List.mem_pair] at own
      rcases own with rfl | rfl
      · exact .inl (Column.pivotable_of_slack isSlack)
      · exact .inl errorPivotable
  | side lenient _ pivotable isDummy =>
      rw [columns_pair (ne_of_dummy pivotable isDummy), List.mem_pair] at own
      rcases own with rfl | rfl
      · exact .inl pivotable
      · exact .inr ⟨isDummy, rfl, fun required => absurd required lenient⟩
  | turnedSide lenient _ pivotable isDummy =>
      rw [columns_pair (Ne.symm (ne_of_dummy pivotable isDummy)), List.mem_pair] at own
      rcases own with rfl | rfl
      · exact .inr ⟨isDummy, rfl, fun required => absurd required lenient⟩
      · exact .inl pivotable

theorem Fits.restricted (fits : Fits priority comparator m) (own : c ∈ m.columns) :
    c.isRestricted = true :=
  (fits.pivotable_or_dummy own).elim Column.restricted_of_pivotable fun dummy =>
    Column.restricted_of_dummy dummy.1

/-- A dummy is the only column of a required constraint. -/
theorem Fits.eq_main_of_dummy (fits : Fits .required comparator m) (own : c ∈ m.columns)
    (dummy : c.isDummy = true) : c = m.main := by
  have notDummy {d : Column} (pivotable : d.isPivotable = true) : d.isDummy = false :=
    Column.not_dummy_of_pivotable pivotable
  cases fits with
  | equation _ =>
      rw [columns_same, List.mem_singleton] at own
      exact own
  | wishedEquation plusIsSlack minusIsSlack apart =>
      rw [columns_pair apart, List.mem_pair] at own
      rcases own with rfl | rfl
      · rfl
      · rw [notDummy (Column.pivotable_of_slack minusIsSlack)] at dummy
        cases dummy
  | bound _ _ =>
      rw [columns_single, List.mem_singleton] at own
      exact own
  | wishedBound _ _ errorPivotable apart =>
      rw [columns_pair apart, List.mem_pair] at own
      rcases own with rfl | rfl
      · rfl
      · rw [notDummy errorPivotable] at dummy
        cases dummy
  | side lenient _ _ _ => exact absurd rfl lenient
  | turnedSide lenient _ _ _ => exact absurd rfl lenient

theorem Fits.errors_subset (fits : Fits priority comparator m) (error : c ∈ m.errors) : c ∈ m.columns := by
  cases fits with
  | equation _ => cases error
  | wishedEquation _ _ apart =>
      rw [columns_pair apart]
      exact error
  | bound _ _ => cases error
  | wishedBound _ _ _ apart =>
      rw [columns_pair apart]
      exact List.mem_cons_of_mem _ error
  | side _ _ _ _ => cases error
  | turnedSide _ _ _ _ => cases error

/-- A constraint that has a weight unless it is required has no columns beside its main one but errors. -/
theorem Fits.main_or_error (fits : Fits priority comparator m)
    (weighed : m.weight = none → priority = .required) (own : c ∈ m.columns) :
    c = m.main ∨ c ∈ m.errors := by
  cases fits with
  | equation _ =>
      rw [columns_same] at own
      exact .inl (List.mem_singleton.1 own)
  | wishedEquation _ _ apart =>
      rw [columns_pair apart] at own
      exact .inr own
  | bound _ _ => exact .inl (List.mem_singleton.1 own)
  | wishedBound _ _ _ apart =>
      rw [columns_pair apart] at own
      exact List.mem_cons.1 own
  | side lenient _ _ _ => exact absurd (weighed rfl) lenient
  | turnedSide lenient _ _ _ => exact absurd (weighed rfl) lenient

/-- Only optional constraints have error columns. -/
theorem Fits.errors_eq_nil (fits : Fits priority comparator m) (required : m.weight = none) :
    m.errors = [] := by
  cases fits with
  | equation _ => rfl
  | wishedEquation _ _ _ => cases required
  | bound _ _ => rfl
  | wishedBound _ _ _ _ => cases required
  | side _ _ _ _ => rfl
  | turnedSide _ _ _ _ => rfl

theorem Fits.pivotable_errors (fits : Fits priority comparator m) (error : c ∈ m.errors) :
    c.isPivotable = true := by
  rcases fits.pivotable_or_dummy (fits.errors_subset error) with pivotable | ⟨-, free, -⟩
  · exact pivotable
  · rw [fits.errors_eq_nil free] at error
    cases error

end Markers

/-- A constraint with its columns in a tableau, and how far its target was moved. -/
structure Posed extends Installed Rat where
  shift : Rat := 0

namespace Posed

variable {p : Posed} {σ : Column → Rat} {x : Variable → Rat} {c : Column}

/-- The columns of a posed constraint. -/
def columns (p : Posed) : List Column := p.markers.columns

/-- How far an assignment lies on the right side of a constraint. -/
def gap (p : Posed) (x : Variable → Rat) : Rat :=
  Row.residualSign p.constraint.comparator *
    (p.constraint.left.eval x - p.constraint.right.eval x) + p.shift

/-- What the columns of a constraint add to its row. -/
def offset (p : Posed) (σ : Column → Rat) : Rat :=
  (p.markers.terms.map fun term => term.2 * σ term.1).sum

/-- The row of a constraint is zero. -/
def Equation (p : Posed) (σ : Column → Rat) : Prop := p.gap (onVariables σ) + p.offset σ = 0

/-- What the error columns of a constraint cost. -/
def cost (p : Posed) (σ : Column → Rat) : Rat :=
  p.markers.weight.getD 0 * (p.markers.errors.map σ).sum

/-- A constraint is met by an assignment. -/
def Met (p : Posed) (x : Variable → Rat) : Prop := Row.Admits p.constraint.comparator (p.gap x)

/-- How far an assignment falls short of a constraint. -/
def shortfall (p : Posed) (x : Variable → Rat) : Rat :=
  match p.constraint.comparator with
  | .eq => |p.gap x|
  | _ => max 0 (-p.gap x)

/-- What falling short of a constraint costs. -/
def penalty (p : Posed) (x : Variable → Rat) : Rat := p.markers.weight.getD 0 * p.shortfall x

/-- The columns of a constraint are of the kinds that mark it. -/
def Fits (p : Posed) : Prop := p.markers.Fits p.constraint.priority p.constraint.comparator

theorem mem_columns_of_term {term : Column × Rat} (own : term ∈ p.markers.terms) :
    term.1 ∈ p.columns := by
  rw [columns, ← Markers.map_terms_eq_columns]
  exact List.mem_map_of_mem own

/-- Columns at zero add nothing. -/
theorem offset_eq_zero (zero : ∀ c ∈ p.columns, σ c = 0) : p.offset σ = 0 := by
  refine List.sum_eq_zero fun value member => ?_
  obtain ⟨term, own, rfl⟩ := List.mem_map.1 member
  rw [zero term.1 (mem_columns_of_term own), mul_zero]

/-- Only its columns and unknowns of the caller matter to a constraint. -/
theorem equation_congr {τ : Column → Rat} (unknowns : onVariables σ = onVariables τ)
    (same : ∀ c ∈ p.columns, σ c = τ c) : p.Equation σ ↔ p.Equation τ := by
  have offsets : p.offset σ = p.offset τ := by
    refine congrArg List.sum (List.map_congr_left fun term member => ?_)
    rw [same term.1 (mem_columns_of_term member)]
  rw [Equation, Equation, unknowns, offsets]

theorem cost_congr (fits : p.Fits) {τ : Column → Rat} (same : ∀ c ∈ p.columns, σ c = τ c) :
    p.cost σ = p.cost τ := by
  rw [cost, cost, List.map_congr_left fun c error => same c (Markers.Fits.errors_subset fits error)]

/-! ### Constraints whose targets were not moved -/

theorem gap_of_unmoved (unmoved : p.shift = 0) (σ : Column → Rat) :
    p.gap (onVariables σ) = (Row.residual p.constraint).eval σ := by
  rw [gap, unmoved, add_zero, Row.eval_residual]

theorem met_of_unmoved (unmoved : p.shift = 0) (x : Variable → Rat) :
    p.Met x ↔ p.constraint.Holds x := by
  have same := gap_of_unmoved unmoved (onColumns x)
  have residual := Row.holds_iff_residual p.constraint (onColumns x)
  rw [onVariables_onColumns] at same residual
  rw [Met, same, residual]

theorem shortfall_of_unmoved (unmoved : p.shift = 0) (x : Variable → Rat) :
    p.shortfall x = p.constraint.violation x := by
  have same := gap_of_unmoved unmoved (onColumns x)
  have residual := Row.violation_eq_residual p.constraint (onColumns x)
  rw [onVariables_onColumns] at same residual
  rw [shortfall, same]
  exact residual.symm

/-! ### Admissible columns -/

theorem Fits.required_of_dummy (fits : p.Fits) (own : c ∈ p.columns) (dummy : c.isDummy = true) :
    p.markers.weight = none := by
  rcases Markers.Fits.pivotable_or_dummy fits own with pivotable | ⟨-, required, -⟩
  · rw [Column.not_dummy_of_pivotable pivotable] at dummy
    cases dummy
  · exact required

/-- A dummy is the only column of a required constraint. -/
theorem Fits.eq_main_of_dummy (fits : p.Fits) (required : p.constraint.priority = .required)
    (own : c ∈ p.columns) (dummy : c.isDummy = true) : c = p.markers.main := by
  rw [Fits, required] at fits
  exact Markers.Fits.eq_main_of_dummy fits own dummy

/-- A constraint that must be met is met where its columns are admissible. -/
theorem met_of_admissible (fits : p.Fits) (required : p.markers.weight = none)
    (equation : p.Equation σ)
    (admissible : ∀ c ∈ p.columns, (c.isDummy = true → σ c = 0) ∧ (c.isPivotable = true → 0 ≤ σ c)) :
    p.Met (onVariables σ) := by
  obtain ⟨⟨constraint, markers⟩, shift⟩ := p
  unfold Met
  unfold Equation offset at equation
  unfold columns at admissible
  simp only [Fits] at fits required equation admissible ⊢
  generalize constraint.comparator = comparator at fits
  cases fits with
  | equation isDummy =>
      have zero := (admissible _ (Markers.main_mem_columns _)).1 isDummy
      rw [Markers.terms_same, List.map_singleton, List.sum_singleton, zero] at equation
      exact (by linarith : Posed.gap _ _ = 0)
  | wishedEquation _ _ _ => cases required
  | bound unequal isSlack =>
      have nonneg := (admissible _ (Markers.main_mem_columns _)).2 (Column.pivotable_of_slack isSlack)
      rw [Markers.terms_single, List.map_singleton, List.sum_singleton] at equation
      exact (Row.admits_iff_nonneg unequal).2 (by linarith)
  | wishedBound _ _ _ _ => cases required
  | @side _ missing dummy _ unequal pivotable isDummy =>
      have apart := Markers.ne_of_dummy pivotable isDummy
      have nonneg := (admissible missing (Markers.main_mem_columns _)).2 pivotable
      have zero := (admissible dummy (by simp [Markers.columns_pair apart])).1 isDummy
      simp only [Markers.terms_pair apart (Column.not_dummy_of_pivotable pivotable), List.map_cons,
        List.map_nil, List.sum_cons, List.sum_nil, zero] at equation
      exact (Row.admits_iff_nonneg unequal).2 (by linarith)
  | @turnedSide _ missing dummy _ unequal pivotable isDummy =>
      have apart := Ne.symm (Markers.ne_of_dummy pivotable isDummy)
      have zero := (admissible dummy (Markers.main_mem_columns _)).1 isDummy
      have nonneg := (admissible missing (by simp [Markers.columns_pair apart])).2 pivotable
      simp only [Markers.terms_pair_of_dummy apart isDummy, List.map_cons, List.map_nil,
        List.sum_cons, List.sum_nil, zero] at equation
      exact (Row.admits_iff_nonneg unequal).2 (by linarith)

/-- A required constraint is met exactly where its column is admissible. -/
theorem met_iff_admissible (fits : p.Fits) (wanted : p.constraint.priority = .required)
    (required : p.markers.weight = none) (equation : p.Equation σ) : p.Met (onVariables σ) ↔
      (p.markers.main.isDummy = true → σ p.markers.main = 0) ∧
        (p.markers.main.isPivotable = true → 0 ≤ σ p.markers.main) := by
  obtain ⟨⟨constraint, markers⟩, shift⟩ := p
  unfold Met Row.Admits
  unfold Equation offset at equation
  simp only [Fits] at fits wanted required equation ⊢
  rw [wanted] at fits
  generalize constraint.comparator = comparator at fits
  cases fits with
  | equation isDummy =>
      simp only [Markers.terms_same, List.map_cons, List.map_nil, List.sum_cons, List.sum_nil,
        one_mul, add_zero, isDummy, Column.not_pivotable_of_dummy isDummy, forall_const,
        Bool.false_eq_true, false_imp_iff, and_true] at equation ⊢
      constructor <;> intro zero <;> linarith
  | wishedEquation _ _ _ => cases required
  | @bound _ slack unequal isSlack =>
      have pivotable := Column.pivotable_of_slack isSlack
      simp only [Markers.terms_single, List.map_cons,
        List.map_nil, List.sum_cons, List.sum_nil, neg_mul, one_mul, add_zero, pivotable,
        Column.not_dummy_of_pivotable pivotable, Bool.false_eq_true, false_imp_iff, forall_const,
        true_and] at equation ⊢
      cases comparator with
      | eq => exact absurd rfl unequal
      | le | ge => constructor <;> intro nonneg <;> linarith
  | wishedBound _ _ _ _ => cases required
  | side lenient _ _ _ => exact absurd rfl lenient
  | turnedSide lenient _ _ _ => exact absurd rfl lenient

/-- Error columns take up at least what is missing. -/
theorem penalty_le_cost (fits : p.Fits) (weighted : ∀ w, p.markers.weight = some w → 0 ≤ w)
    (equation : p.Equation σ) (nonneg : ∀ c, c.isPivotable = true → 0 ≤ σ c) :
    p.penalty (onVariables σ) ≤ p.cost σ := by
  obtain ⟨⟨constraint, markers⟩, shift⟩ := p
  unfold penalty cost shortfall
  unfold Equation offset at equation
  simp only [Fits] at fits weighted equation ⊢
  generalize constraint.comparator = comparator at fits
  cases fits with
  | equation _ => simp
  | @wishedEquation plus minus weight plusIsSlack minusIsSlack apart =>
      have first := nonneg plus (Column.pivotable_of_slack plusIsSlack)
      have second := nonneg minus (Column.pivotable_of_slack minusIsSlack)
      have plain := Column.not_dummy_of_pivotable (Column.pivotable_of_slack plusIsSlack)
      simp only [Markers.terms_pair apart plain, List.map_cons, List.map_nil, List.sum_cons,
        List.sum_nil, Option.getD_some] at equation ⊢
      refine mul_le_mul_of_nonneg_left (abs_le.2 ⟨?_, ?_⟩) (weighted weight rfl) <;> linarith
  | bound _ _ => simp
  | @wishedBound _ slack error weight unequal isSlack errorPivotable apart =>
      have first := nonneg slack (Column.pivotable_of_slack isSlack)
      have second := nonneg error errorPivotable
      have plain := Column.not_dummy_of_pivotable (Column.pivotable_of_slack isSlack)
      simp only [Markers.terms_pair apart plain, List.map_cons, List.map_nil, List.sum_cons,
        List.sum_nil, Option.getD_some] at equation ⊢
      refine mul_le_mul_of_nonneg_left ?_ (weighted weight rfl)
      cases comparator with
      | eq => exact absurd rfl unequal
      | le | ge => exact max_le (by linarith) (by linarith)
  | side _ _ _ _ => simp
  | turnedSide _ _ _ _ => simp

theorem cost_nonneg (fits : p.Fits) (weighted : ∀ w, p.markers.weight = some w → 0 ≤ w)
    (nonneg : ∀ c, c.isPivotable = true → 0 ≤ σ c) : 0 ≤ p.cost σ := by
  refine mul_nonneg ?_ (List.sum_nonneg fun value member => ?_)
  · cases weight : p.markers.weight with
    | none => rfl
    | some w => exact weighted w weight
  · obtain ⟨c, error, rfl⟩ := List.mem_map.1 member
    exact nonneg c (Markers.Fits.pivotable_errors fits error)

/-! ### Placing columns -/

/-- The value that a column of a constraint is best given. -/
def place (p : Posed) (x : Variable → Rat) (c : Column) : Rat :=
  if c.isDummy then 0
  else if c = p.markers.main ∨ p.markers.main.isDummy then max (p.gap x) 0
  else max (-p.gap x) 0

theorem place_nonneg (p : Posed) (x : Variable → Rat) (c : Column) : 0 ≤ p.place x c := by
  unfold place
  split
  · rfl
  · split
    · exact le_max_right _ _
    · exact le_max_right _ _

theorem place_of_dummy (dummy : c.isDummy = true) : p.place x c = 0 := by
  rw [place, if_pos dummy]

/-- Columns that are placed well satisfy the row of the constraint and cost no more than what is
missing. -/
theorem equation_and_cost_of_placed (fits : p.Fits)
    (placed : ∀ c ∈ p.columns, σ c = p.place (onVariables σ) c)
    (met : p.markers.weight = none → p.Met (onVariables σ)) :
    p.Equation σ ∧ p.cost σ = p.penalty (onVariables σ) := by
  obtain ⟨⟨constraint, markers⟩, shift⟩ := p
  unfold Equation offset cost penalty shortfall
  unfold Met at met
  unfold columns place at placed
  simp only [Fits] at fits met placed ⊢
  generalize gap ⟨⟨constraint, markers⟩, shift⟩ (onVariables σ) = g at *
  generalize constraint.comparator = comparator at *
  have notDummy {c : Column} (pivotable : c.isPivotable = true) : ¬c.isDummy = true := by
    rw [Column.not_dummy_of_pivotable pivotable]
    exact Bool.false_ne_true
  have nonneg (unequal : comparator ≠ .eq) (required : markers.weight = none) : 0 ≤ g :=
    (Row.admits_iff_nonneg unequal).1 (met required)
  cases fits with
  | @equation dummy isDummy =>
      have value := placed dummy (Markers.main_mem_columns _)
      rw [if_pos isDummy] at value
      have zero : g = 0 := met rfl
      simp [Markers.terms_same, value, zero]
  | @wishedEquation plus minus weight plusIsSlack minusIsSlack apart =>
      have plain := Column.not_dummy_of_pivotable (Column.pivotable_of_slack plusIsSlack)
      have first := placed plus (Markers.main_mem_columns _)
      have second := placed minus (by simp [Markers.columns_pair apart])
      rw [if_neg (notDummy (Column.pivotable_of_slack plusIsSlack)), if_pos (.inl rfl)] at first
      rw [if_neg (notDummy (Column.pivotable_of_slack minusIsSlack)),
        if_neg (by simp [apart, plain])] at second
      simp only [Markers.terms_pair apart plain, List.map_cons, List.map_nil, List.sum_cons,
        List.sum_nil, first, second, Option.getD_some]
      rcases le_total 0 g with positive | negative
      · rw [max_eq_left positive, max_eq_right (neg_nonpos.2 positive), abs_of_nonneg positive]
        constructor <;> ring
      · rw [max_eq_right negative, max_eq_left (neg_nonneg.2 negative), abs_of_nonpos negative]
        constructor <;> ring
  | @bound _ slack unequal isSlack =>
      have value := placed slack (Markers.main_mem_columns _)
      rw [if_neg (notDummy (Column.pivotable_of_slack isSlack)), if_pos (.inl rfl),
        max_eq_left (nonneg unequal rfl)] at value
      simp [Markers.terms_single, value]
  | @wishedBound _ slack error weight unequal isSlack errorPivotable apart =>
      have plain := Column.not_dummy_of_pivotable (Column.pivotable_of_slack isSlack)
      have first := placed slack (Markers.main_mem_columns _)
      have second := placed error (by simp [Markers.columns_pair apart])
      rw [if_neg (notDummy (Column.pivotable_of_slack isSlack)), if_pos (.inl rfl)] at first
      rw [if_neg (notDummy errorPivotable), if_neg (by simp [apart, plain])] at second
      simp only [Markers.terms_pair apart plain, List.map_cons, List.map_nil, List.sum_cons,
        List.sum_nil, first, second, Option.getD_some]
      refine ⟨?_, ?_⟩
      · rcases le_total 0 g with positive | negative
        · rw [max_eq_left positive, max_eq_right (neg_nonpos.2 positive)]
          ring
        · rw [max_eq_right negative, max_eq_left (neg_nonneg.2 negative)]
          ring
      · cases comparator with
        | eq => exact absurd rfl unequal
        | le | ge => rw [max_comm, add_zero]
  | @side _ missing dummy _ unequal pivotable isDummy =>
      have apart := Markers.ne_of_dummy pivotable isDummy
      have first := placed missing (Markers.main_mem_columns _)
      have second := placed dummy (by simp [Markers.columns_pair apart])
      rw [if_neg (notDummy pivotable), if_pos (.inl rfl), max_eq_left (nonneg unequal rfl)] at first
      rw [if_pos isDummy] at second
      simp [Markers.terms_pair apart (Column.not_dummy_of_pivotable pivotable), first, second]
  | @turnedSide _ missing dummy _ unequal pivotable isDummy =>
      have apart := Ne.symm (Markers.ne_of_dummy pivotable isDummy)
      have first := placed dummy (Markers.main_mem_columns _)
      have second := placed missing (by simp [Markers.columns_pair apart])
      rw [if_pos isDummy] at first
      rw [if_neg (notDummy pivotable), if_pos (.inr isDummy), max_eq_left (nonneg unequal rfl)]
        at second
      simp [Markers.terms_pair_of_dummy apart isDummy, first, second]

end Posed

end SoftSimplex
