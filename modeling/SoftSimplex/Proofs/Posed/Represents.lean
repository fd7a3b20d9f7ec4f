import SoftSimplex.Proofs.Posed.Family
import SoftSimplex.Proofs.Simplex.Insertion

/-!
Tableaus of posed constraints.

A tableau represents a family of posed constraints if its equations are their rows and the definition of
the objective (`Represents`). Whatever the shape of the tableau, its basic solution satisfies the rows; in
a shaped tableau whose objective row nothing lowers, the basic solution meets the required constraints and
misses the others by no more than any other assignment (`Represents.optimal`).
-/

namespace SoftSimplex.Tableau

variable {t t' : Tableau Rat} {posed : List Posed} {goal goal' : (Column → Rat) → Rat}
  {row : Row Rat} {p : Posed} {σ : Column → Rat} {x : Variable → Rat} {c : Column} {k : Rat}

/-- An objective does not look at objectives. -/
def Blind (goal : (Column → Rat) → Rat) : Prop :=
  ∀ σ τ : Column → Rat, (∀ c, c.isObjective = false → σ c = τ c) → goal σ = goal τ

/-- The equations of a tableau are the rows of posed constraints and the definition of the
objective. -/
structure Represents (t : Tableau Rat) (posed : List Posed) (goal : (Column → Rat) → Rat) : Prop
    extends t.Exact where
  holds : ∀ σ, t.Holds σ ↔ (∀ p ∈ posed, p.Equation σ) ∧ σ .objective = goal σ
  blind : Blind goal
  stored : (t.rows.get? .objective).isSome
  idle : t.rows.get? .artificialObjective = none

/-- No pivotable column lowers the objective. -/
def Optimized (t : Tableau Rat) : Prop :=
  ∀ goal, t.rows.get? .objective = some goal → Minimal goal

theorem Represents.congr (represents : t.Represents posed goal) (same : ∀ σ, goal' σ = goal σ) :
    t.Represents posed goal' :=
  (funext same : goal' = goal) ▸ represents

theorem Represents.perm {other : List Posed} (represents : t.Represents posed goal)
    (perm : posed.Perm other) : t.Represents other goal where
  toExact := represents.toExact
  holds σ := (represents.holds σ).trans
    (and_congr_left fun _ => forall_congr' fun _ => imp_congr_left perm.mem_iff)
  blind := represents.blind
  stored := represents.stored
  idle := represents.idle

theorem Represents.turns (represents : t.Represents posed goal) (turns : t.Turns t') :
    t'.Represents posed goal where
  toExact := turns.exact represents.toExact
  holds σ := (turns.holds represents.toExact σ).trans (represents.holds σ)
  blind := represents.blind
  stored := by
    rw [turns.basic_eq represents.toExact rfl]
    exact represents.stored
  idle := by
    have basic := turns.basic_eq represents.toExact (c := .artificialObjective) rfl
    rw [represents.idle] at basic
    exact Option.not_isSome_iff_eq_none.1 (by rw [basic]; exact Bool.false_ne_true)

theorem Represents.awaiting (represents : t.Represents posed goal) (rest : Sorted.Set Column) :
    (t.awaiting rest).Represents posed goal where
  toExact := represents.toExact.awaiting rest
  holds := represents.holds
  blind := represents.blind
  stored := represents.stored
  idle := represents.idle

/-- A tableau with one more equation represents one more constraint. -/
theorem Represents.extended (represents : t.Represents posed goal) (exact : t'.Exact)
    {more : (Column → Rat) → Prop} (holds : ∀ σ, t'.Holds σ ↔ t.Holds σ ∧ more σ)
    (objectives : ∀ c, c.isObjective = true → (t'.rows.get? c).isSome = (t.rows.get? c).isSome)
    (expresses : ∀ σ, t.Holds σ → (more σ ↔ p.Equation σ)) : t'.Represents (p :: posed) goal where
  toExact := exact
  holds σ := by
    rw [holds, List.forall_mem_cons]
    constructor
    · rintro ⟨before, own⟩
      obtain ⟨equations, objective⟩ := (represents.holds σ).1 before
      exact ⟨⟨(expresses σ before).1 own, equations⟩, objective⟩
    · rintro ⟨⟨own, equations⟩, objective⟩
      have before := (represents.holds σ).2 ⟨equations, objective⟩
      exact ⟨before, (expresses σ before).2 own⟩
  blind := represents.blind
  stored := by
    rw [objectives _ rfl]
    exact represents.stored
  idle := by
    have basic := objectives .artificialObjective rfl
    rw [represents.idle] at basic
    exact Option.not_isSome_iff_eq_none.1 (by rw [basic]; exact Bool.false_ne_true)

/-- A row that was put in joins the constraints. -/
theorem Represents.inserted (represents : t.Represents posed goal) (inserted : t.Inserted row t')
    (expresses : ∀ σ, t.Holds σ → (row.eval σ = 0 ↔ p.Equation σ)) :
    t'.Represents (p :: posed) goal :=
  represents.extended inserted.toExact inserted.holds inserted.objectives expresses

/-! ### Columns that cost a weight -/

/-- A constraint does not look at objectives. -/
theorem equation_update_objective (fits : p.Fits) (σ : Column → Rat) (value : Rat) :
    p.Equation (Function.update σ .objective value) ↔ p.Equation σ := by
  refine Posed.equation_congr (funext fun v => Function.update_of_ne (by simp [Column.objective]) _ _)
    fun c own => Function.update_of_ne ?_ _ _
  rintro rfl
  cases Markers.Fits.restricted fits own

theorem Represents.addToObjective (represents : t.Represents posed goal) (family : Family posed)
    (plain : c.isObjective = false) (weight : Rat) :
    (t.addToObjective c weight .objective).Represents posed fun σ => goal σ + weight * σ c := by
  obtain ⟨row, found⟩ := Option.isSome_iff_exists.1 represents.stored
  have different : c ≠ .objective := by
    rintro rfl
    cases plain
  have apart := represents.apart_addToObjective found plain weight
  refine
    { toExact := represents.toExact.addToObjective found plain weight
      holds := fun σ => ?_
      blind := fun σ τ same => by
        dsimp only
        rw [represents.blind σ τ same, same c plain]
      stored := apart.stored
      idle := by rw [apart.others _ (by simp [Column.objective, Column.artificialObjective]),
        represents.idle] }
  have blind (value : Rat) : goal (Function.update σ .objective value) = goal σ :=
    represents.blind _ _ fun d other => Function.update_of_ne (by rintro rfl; cases other) _ _
  rw [represents.holds_addToObjective found plain different, represents.holds, blind,
    Function.update_self, sub_eq_iff_eq_add]
  exact and_congr_left fun _ => forall₂_congr fun p member =>
    equation_update_objective (family.fits p member) σ _

/-- The tableau in which more columns cost a weight. -/
def penalized (t : Tableau Rat) (weight : Rat) (errors : List Column) : Tableau Rat :=
  errors.foldl (fun t error => t.addToObjective error weight) t

theorem Represents.penalized (represents : t.Represents posed goal) (family : Family posed)
    {errors : List Column} (plain : ∀ c ∈ errors, c.isObjective = false) (weight : Rat) :
    (t.penalized weight errors).Represents posed fun σ => goal σ + weight * (errors.map σ).sum := by
  induction errors generalizing t goal with
  | nil => exact represents.congr fun σ => by simp
  | cons error rest ih =>
      have first := represents.addToObjective family (plain error List.mem_cons_self) weight
      refine (ih first fun c member => plain c (List.mem_cons_of_mem _ member)).congr fun σ => ?_
      rw [List.map_cons, List.sum_cons]
      ring

/-- The basic solution satisfies every row. -/
theorem Represents.equation (represents : t.Represents posed goal) (member : p ∈ posed) :
    p.Equation t.basicSolution :=
  ((represents.holds _).1 represents.holds_basicSolution).1 p member

/-! ### Completed assignments -/

/-- An assignment to the columns, with the objective that belongs to it. -/
def withObjectiveOf (goal : (Column → Rat) → Rat) (σ : Column → Rat) : Column → Rat :=
  Function.update σ .objective (goal σ)

theorem withObjectiveOf_of_ne (different : c ≠ .objective) :
    withObjectiveOf goal σ c = σ c := Function.update_of_ne different _ _

theorem withObjectiveOf_of_plain (plain : c.isObjective = false) :
    withObjectiveOf goal σ c = σ c := by
  refine withObjectiveOf_of_ne ?_
  rintro rfl
  cases plain

theorem onVariables_withObjectiveOf (goal : (Column → Rat) → Rat) (σ : Column → Rat) :
    onVariables (withObjectiveOf goal σ) = onVariables σ :=
  funext fun _ => withObjectiveOf_of_plain rfl

theorem Admissible.withObjectiveOf (admissible : Admissible σ) (goal : (Column → Rat) → Rat) :
    Admissible (withObjectiveOf goal σ) :=
  admissible.of_plain fun _ => withObjectiveOf_of_plain

section

variable (family : Family posed) (represents : t.Represents posed goal)
include family represents

theorem Represents.holds_withObjectiveOf (equations : ∀ p ∈ posed, p.Equation σ) :
    t.Holds (withObjectiveOf goal σ) := by
  refine (represents.holds _).2 ⟨fun p member => ?_, ?_⟩
  · refine (Posed.equation_congr (onVariables_withObjectiveOf goal σ) fun c own => ?_).2
      (equations p member)
    exact withObjectiveOf_of_plain (Column.not_objective_of_restricted
      (Markers.Fits.restricted (family.fits p member) own))
  · rw [represents.blind (withObjectiveOf goal σ) σ fun c => withObjectiveOf_of_plain, withObjectiveOf,
      Function.update_self]

/-- The basic solution of a shaped tableau meets the required constraints. -/
theorem Represents.meetsRequired (shaped : t.Shaped) :
    MeetsRequired posed (onVariables t.basicSolution) :=
  family.meetsRequired (fun _ => represents.equation) (shaped.admissible represents.toWellFormed)

end

/-! ### Penalties as the objective -/

theorem blind_costs (family : Family posed) (k : Rat) : Blind fun σ => k + costs posed σ :=
  fun _ _ same => congrArg (k + ·) (family.costs_congr fun p member c own =>
    same c (Column.not_objective_of_restricted
      (Markers.Fits.restricted (family.fits p member) own)))

section

variable (family : Family posed) (weighted : Weighted posed)
  (represents : t.Represents posed fun σ => k + costs posed σ)
include family weighted represents

/-- The penalties are never negative. -/
theorem Represents.bounded : ∃ least, ∀ σ, t.Holds σ → (∀ c, c.isPivotable = true → 0 ≤ σ c) →
    least ≤ σ .objective :=
  ⟨k, fun σ holds nonneg => by
    rw [((represents.holds σ).1 holds).2]
    exact le_add_of_nonneg_right (family.costs_nonneg weighted nonneg)⟩

/-- The objective of the basic solution covers its penalties. -/
theorem Represents.penalties_le_constant (shaped : t.Shaped) {objective : Row Rat}
    (found : t.rows.get? .objective = some objective) :
    k + penalties posed (onVariables t.basicSolution) ≤ objective.constant := by
  have basic := ((represents.holds _).1 represents.holds_basicSolution).2
  have lower := family.penalties_le_costs weighted (fun _ => represents.equation) shaped.feasible
  rw [basicSolution_of_basic found] at basic
  rw [basic]
  exact add_le_add_right lower k

/-- In a steady tableau the objective row mentions no unknown of the caller. -/
theorem Represents.coefficient_external (steady : t.Steady) {objective : Row Rat}
    (found : t.rows.get? .objective = some objective) (external : c.isExternal = true) :
    objective.coefficient c = 0 :=
  represents.coefficient_external_eq_zero found steady.sheltered steady.feasible
    (represents.bounded family weighted) external

/-- In a shaped tableau whose objective row nothing lowers, no assignment that meets the required
constraints misses the others by less than the basic solution. -/
theorem Represents.optimal (shaped : t.Shaped) (optimized : t.Optimized)
    (meets : MeetsRequired posed x) :
    penalties posed (onVariables t.basicSolution) ≤ penalties posed x := by
  obtain ⟨goal, found⟩ := Option.isSome_iff_exists.1 represents.stored
  obtain ⟨equations, costs_eq⟩ := family.completed meets
  have holds := represents.holds_withObjectiveOf family equations
  have admissible := (Family.admissible_completion posed x).withObjectiveOf
    fun σ => k + costs posed σ
  have least := represents.constant_le found (optimized goal found)
    (fun c => represents.coefficient_external family weighted shaped.steady found) holds admissible
  have lower := represents.penalties_le_constant family weighted shaped found
  rw [withObjectiveOf, Function.update_self, costs_eq] at least
  linarith

end

end SoftSimplex.Tableau
