import SoftSimplex.Proofs.Simplex.Insertion

/-!
The first phase.

A row that no column can become basic for is stored twice, under an artificial column and as an objective
of its own (`phaseOne`). Minimising that objective brings the artificial column to zero if the row can be
zero at all (`Ready.pos_of_minimal`); then the column is taken out of the basis (`Brought`) and both are
withdrawn, which leaves the equation (`Ready.inserted`). Where that fails, the artificial column stays in
the basis, and the row is left as its definition (`Ready.stranded`).
-/

namespace SoftSimplex.Tableau

variable {t t₂ t' : Tableau Rat} {row goal : Row Rat} {a c entry key : Column} {σ : Column → Rat}

/-! ### The row stored twice -/

/-- A row can be stored under an artificial column and as an objective. -/
structure Enterable (t : Tableau Rat) (row : Row Rat) (a : Column) : Prop where
  wf : t.WellFormed
  parametric : t.Parametric row
  idle : t.rows.get? .artificialObjective = none
  pivotable : a.isPivotable = true
  new : a ∉ t.scope
  absent : row.terms.contains a = false

/-- The tableau with a row under an artificial column and under the objective of the first phase. -/
def phaseOne (t : Tableau Rat) (row : Row Rat) (a : Column) : Tableau Rat :=
  (t.insertRow .artificialObjective row).insertRow a row

/-- The tableau without the objective of the first phase and without the artificial column. -/
def withdrawn (t : Tableau Rat) (a : Column) : Tableau Rat :=
  (t.removeRow .artificialObjective).removeColumn a

theorem ne_artificialObjective (pivotable : c.isPivotable = true) : c ≠ .artificialObjective := by
  rintro rfl
  cases pivotable

theorem get?_phaseOne (c : Column) :
    (t.phaseOne row a).rows.get? c =
      if a = c then some row else if .artificialObjective = c then some row else t.rows.get? c := by
  rw [phaseOne, get?_insertRow, get?_insertRow]

theorem mem_scope_phaseOne (c : Column) :
    c ∈ (t.phaseOne row a).scope ↔ c = a ∨ c = .artificialObjective ∨
      row.terms.contains c = true ∨ c ∈ t.scope := by
  rw [phaseOne, mem_scope_insertRow, mem_scope_insertRow]
  tauto

namespace Enterable

variable (enterable : t.Enterable row a)
include enterable

theorem objective_absent : row.terms.contains .artificialObjective = false := by
  rw [← Bool.not_eq_true]
  intro present
  cases enterable.parametric.plain _ present

theorem objective_storable : t.Storable .artificialObjective row where
  absent := enterable.idle
  unindexed := by
    rw [← Option.not_isSome_iff_eq_none]
    intro indexed
    cases enterable.wf.plain _ indexed
  nonzero := enterable.parametric.nonzero
  apart := by
    have absent := enterable.objective_absent
    rwa [Sorted.Map.contains, ← Bool.not_eq_true, Option.not_isSome_iff_eq_none] at absent
  noObjective := enterable.parametric.plain
  nonbasic := enterable.parametric.nonbasic

theorem artificial_storable : (t.insertRow .artificialObjective row).Storable a row where
  absent := by
    rw [get?_insertRow, if_neg (Ne.symm (ne_artificialObjective enterable.pivotable))]
    exact not_basic_of_not_mem_scope enterable.new
  unindexed := by
    rw [← Option.not_isSome_iff_eq_none, indexed_insertRow, not_or, enterable.absent,
      not_indexed_of_not_mem_scope enterable.new]
    simp
  nonzero := enterable.parametric.nonzero
  apart := by
    have absent := enterable.absent
    rwa [Sorted.Map.contains, ← Bool.not_eq_true, Option.not_isSome_iff_eq_none] at absent
  noObjective := enterable.parametric.plain
  nonbasic c present := by
    rw [get?_insertRow, if_neg, enterable.parametric.nonbasic c present]
    rintro rfl
    rw [enterable.objective_absent] at present
    cases present

theorem objective_found : (t.phaseOne row a).rows.get? .artificialObjective = some row := by
  rw [get?_phaseOne, if_neg (ne_artificialObjective enterable.pivotable), if_pos rfl]

theorem holds_phaseOne : (t.phaseOne row a).Holds σ ↔
    t.Holds σ ∧ σ .artificialObjective = row.eval σ ∧ σ a = row.eval σ := by
  rw [phaseOne, holds_insertRow enterable.artificial_storable.absent,
    holds_insertRow enterable.idle, and_assoc]

theorem objective_new : .artificialObjective ∉ t.scope := by
  intro known
  rcases mem_scope.1 known with basic | indexed
  · rw [enterable.idle] at basic
    cases basic
  · cases enterable.wf.plain _ indexed

/-- In the first phase the objective is the artificial column. -/
theorem objective_eq (holds : (t.phaseOne row a).Holds σ) : σ .artificialObjective = σ a := by
  obtain ⟨-, objective, artificial⟩ := enterable.holds_phaseOne.1 holds
  rw [objective, artificial]

end Enterable

/-- A row can be brought in by the first phase, through an artificial column. -/
structure Ready (t : Tableau Rat) (row : Row Rat) (a : Column) : Prop where
  exact : t.Exact
  insertable : t.Insertable row
  internal : ∀ c, row.terms.contains c = true → c.isExternal = false
  idle : t.rows.get? .artificialObjective = none
  pivotable : a.isPivotable = true
  new : a ∉ t.scope
  absent : row.terms.contains a = false

namespace Ready

variable (ready : t.Ready row a)
include ready

theorem enterable : t.Enterable row a :=
  ⟨ready.exact.toWellFormed, ready.insertable.toParametric, ready.idle, ready.pivotable, ready.new,
    ready.absent⟩

theorem phaseOne_exact : (t.phaseOne row a).Exact :=
  (ready.exact.insertRow ready.enterable.objective_storable).insertRow
    ready.enterable.artificial_storable

/-- The first phase says that the artificial column and the objective have the value of the row. -/
theorem holds_phaseOne_update (σ : Column → Rat) (value x : Rat) :
    (t.phaseOne row a).Holds
      (Function.update (Function.update σ a value) .artificialObjective x) ↔
        t.Holds σ ∧ row.eval σ = value ∧ x = value := by
  have apart : a ≠ .artificialObjective := ne_artificialObjective ready.pivotable
  have wf := ready.exact.toWellFormed
  have sameRow : row.eval (Function.update (Function.update σ a value) .artificialObjective x) =
      row.eval σ := by
    have first : row.coefficient .artificialObjective = 0 :=
      Row.coefficient_of_not_contains ready.enterable.objective_absent
    have second : row.coefficient a = 0 := Row.coefficient_of_not_contains ready.absent
    rw [Row.eval_update_assignment, Row.eval_update_assignment, first, second]
    ring
  rw [ready.enterable.holds_phaseOne, sameRow, Function.update_self, Function.update_of_ne apart,
    Function.update_self, wf.holds_update_of_new ready.enterable.objective_new,
    wf.holds_update_of_new ready.new]
  constructor
  · rintro ⟨holds, objective, artificial⟩
    exact ⟨holds, artificial.symm, objective.trans artificial.symm⟩
  · rintro ⟨holds, own, rfl⟩
    exact ⟨holds, own.symm, own.symm⟩

theorem bounded : ∃ least, ∀ σ, (t.phaseOne row a).Holds σ →
    (∀ c, c.isPivotable = true → 0 ≤ σ c) → least ≤ σ .artificialObjective :=
  ⟨0, fun σ holds nonneg => by
    rw [ready.enterable.objective_eq holds]
    exact nonneg a ready.pivotable⟩

theorem basicSolution_phaseOne (c : Column) : (t.phaseOne row a).basicSolution c =
    if c = a ∨ c = .artificialObjective then row.constant else t.basicSolution c := by
  have stored : (t.phaseOne row a).rows.get? c = _ := get?_phaseOne c
  split
  · next own =>
      refine basicSolution_of_basic (stored.trans ?_)
      rcases own with rfl | rfl
      · rw [if_pos rfl]
      · rw [if_pos rfl, ite_self]
  · next other =>
      rw [not_or] at other
      rw [if_neg (Ne.symm other.1), if_neg (Ne.symm other.2)] at stored
      rw [basicSolution, basicSolution, extend, extend, stored]

theorem feasible_phaseOne (feasible : t.Feasible) : (t.phaseOne row a).Feasible := by
  intro c pivotable
  rw [ready.basicSolution_phaseOne]
  split
  · exact ready.insertable.nonneg
  · exact feasible c pivotable

/-- A row that is zero starts the first phase where the tableau is. -/
theorem still_phaseOne (zero : row.constant = 0) :
    (t.phaseOne row a).basicSolution = t.basicSolution := by
  funext c
  rw [ready.basicSolution_phaseOne, zero]
  split
  · next own =>
      rcases own with rfl | rfl
      · rw [basicSolution_of_not_basic (not_basic_of_not_mem_scope ready.new)]
      · rw [basicSolution_of_not_basic ready.idle]
  · rfl

theorem retains_phaseOne (steady : t.Steady) : t.Retains (t.phaseOne row a) := by
  have apart {key : Column} (restricted : key.isRestricted = true) : .artificialObjective ≠ key := by
    rintro rfl
    cases restricted
  have mentioned {key c : Column} (restricted : key.isRestricted = true)
      (mentioned : (t.phaseOne row a).Mentions key c) :
      (key = a ∧ row.terms.contains c = true) ∨ t.Mentions key c := by
    rcases mentions_insertRow.1 mentioned with own | ⟨-, before⟩
    · exact .inl own
    · exact .inr ((mentions_insertRow.1 before).resolve_left fun same =>
        apart restricted same.1.symm).2
  refine ⟨⟨fun key c restricted mention => ?_, fun key c dummy mention => ?_,
    upright_iff.2 fun c restricted => ?_⟩, fun c dummy => ?_⟩
  · rcases mentioned restricted mention with ⟨-, inRow⟩ | before
    · exact ready.internal c inRow
    · exact steady.sheltered key c restricted before
  · rcases mentioned (Column.restricted_of_dummy dummy) mention with ⟨rfl, -⟩ | before
    · rw [Column.not_dummy_of_pivotable ready.pivotable] at dummy
      cases dummy
    · exact steady.insulated key c dummy before
  · rw [ready.basicSolution_phaseOne]
    split
    · exact ready.insertable.nonneg
    · exact steady.upright.nonneg restricted
  · rw [ready.basicSolution_phaseOne, if_neg]
    rintro (rfl | rfl)
    · rw [Column.not_dummy_of_pivotable ready.pivotable] at dummy
      cases dummy
    · cases dummy

theorem shaped_phaseOne (shaped : t.Shaped) : (t.phaseOne row a).Shaped :=
  (ready.retains_phaseOne shaped.steady).shaped shaped

/-- At an optimum of the first phase the row is nowhere less than the artificial column, as long as that is
basic, among the admissible assignments that hold. -/
theorem constant_le_eval (shaped : t.Shaped) (turns : (t.phaseOne row a).Turns t₂)
    (feasible : t₂.Feasible) (found : t₂.rows.get? .artificialObjective = some goal)
    (minimal : Minimal goal) (basic : (t₂.rows.get? a).isSome) (holds : t.Holds σ)
    (admissible : Admissible σ) : goal.constant ≤ row.eval σ := by
  have exact := turns.exact ready.phaseOne_exact
  have shaped₂ := (ready.shaped_phaseOne shaped).turns ready.phaseOne_exact turns feasible
  have holds₂ (τ : Column → Rat) := turns.holds ready.phaseOne_exact τ
  have closed := fun c => exact.coefficient_external_eq_zero (c := c) found shaped₂.sheltered feasible (by
    obtain ⟨least, bound⟩ := ready.bounded
    exact ⟨least, fun τ holds nonneg => bound τ ((holds₂ τ).1 holds) nonneg⟩)
  have least := exact.constant_le_eval found minimal
    (fun c external => mul_eq_zero_of_left (closed c external) _) admissible.nonneg
    fun c dummy _ => admissible.zero c dummy
  -- The assignment that gives both new columns the value of the row holds as well.
  have extended := (holds₂ _).2 ((ready.holds_phaseOne_update σ _ _).2 ⟨holds, rfl, rfl⟩)
    .artificialObjective goal found
  have first : goal.coefficient .artificialObjective = 0 := by
    by_contra mentioned
    cases exact.noObjective _ _ (mentions_of_coefficient found mentioned)
  have second : goal.coefficient a = 0 := by
    by_contra mentioned
    have outside := exact.not_basic (mentions_of_coefficient found mentioned)
    rw [outside] at basic
    cases basic
  rw [Function.update_self, Row.eval_update_assignment, Row.eval_update_assignment, first, second,
    zero_mul, zero_mul, add_zero, add_zero] at extended
  rw [extended]
  exact least

/-- At an optimum of the first phase that is not zero the artificial column is basic, and the row is
positive. -/
theorem pos_of_minimal (turns : (t.phaseOne row a).Turns t₂)
    (found : t₂.rows.get? .artificialObjective = some goal) (minimal : Minimal goal)
    (nonzero : goal.constant ≠ 0) : (t₂.rows.get? a).isSome ∧ (t.Shaped → t₂.Feasible →
      ∀ σ, t.Holds σ → Admissible σ → 0 < row.eval σ) := by
  have exact := turns.exact ready.phaseOne_exact
  have same : goal.constant = t₂.basicSolution a := by
    rw [← basicSolution_of_basic found,
      ready.enterable.objective_eq ((turns.holds ready.phaseOne_exact _).1 exact.holds_basicSolution)]
  have basic : (t₂.rows.get? a).isSome := by
    cases inside : t₂.rows.get? a with
    | some artificialRow => rfl
    | none =>
        rw [same, basicSolution_of_not_basic inside] at nonzero
        exact absurd rfl nonzero
  refine ⟨basic, fun shaped feasible σ holds admissible => ?_⟩
  have lower : 0 ≤ goal.constant := same ▸ feasible a ready.pivotable
  exact (lower.lt_of_ne nonzero.symm).trans_le
    (ready.constant_le_eval shaped turns feasible found minimal basic holds admissible)

end Ready

/-! ### Withdrawing the artificial column -/

/-- The artificial column is out of the basis, and otherwise nothing has changed. -/
structure Brought (t t' : Tableau Rat) (a : Column) : Prop where
  exact : t'.Exact
  outside : t'.rows.get? a = none
  holds : ∀ σ, σ a = 0 → (t'.Holds σ ↔ t.Holds σ)
  scope : ∀ c, c ≠ a → (c ∈ t'.scope ↔ c ∈ t.scope)
  objectives : ∀ c, c.isObjective = true → (t'.rows.get? c).isSome = (t.rows.get? c).isSome
  externals : ∀ c, c.isExternal = true → (t.rows.get? c).isSome → (t'.rows.get? c).isSome
  recorded : t.Recorded → t'.Recorded

section

variable (ready : t.Ready row a) (brought : Brought (t.phaseOne row a) t₂ a)
include ready brought

theorem Brought.objective_stored : (t₂.rows.get? .artificialObjective).isSome := by
  rw [brought.objectives _ rfl, ready.enterable.objective_found]
  rfl

theorem Brought.outside_removeRow : (t₂.removeRow .artificialObjective).rows.get? a = none := by
  rw [get?_removeRow, if_neg (Ne.symm (ne_artificialObjective ready.pivotable)), brought.outside]

omit ready in
theorem Brought.basic_withdrawn (c : Column) : ((t₂.withdrawn a).rows.get? c).isSome ↔
    c ≠ .artificialObjective ∧ (t₂.rows.get? c).isSome := by
  rw [withdrawn, get?_removeColumn (brought.exact.removeRow _).toWellFormed, Option.isSome_map,
    get?_removeRow]
  by_cases same : .artificialObjective = c
  · simp [same]
  · simp [same, Ne.symm same]

/-- What held with the artificial column at zero holds, and the row is zero. -/
theorem Brought.holds_withdrawn :
    (t₂.withdrawn a).Holds σ ↔ t.Holds σ ∧ row.eval σ = 0 := by
  have apart : a ≠ .artificialObjective := ne_artificialObjective ready.pivotable
  obtain ⟨goal, found⟩ := Option.isSome_iff_exists.1 (brought.objective_stored ready)
  have each (x : Rat) := (brought.holds
    (Function.update (Function.update σ a 0) .artificialObjective x)
    (by rw [Function.update_of_ne apart, Function.update_self])).trans
      (ready.holds_phaseOne_update σ 0 x)
  rw [withdrawn, (brought.exact.removeRow _).holds_removeColumn (brought.outside_removeRow ready),
    holds_removeRow brought.exact.toWellFormed found]
  simp only [each]
  simp

theorem Brought.mem_scope_withdrawn :
    c ∈ (t₂.withdrawn a).scope ↔ c ∈ t.scope ∨ row.terms.contains c = true := by
  rw [withdrawn,
    (brought.exact.removeRow _).mem_scope_removeColumn (brought.outside_removeRow ready),
    brought.exact.mem_scope_removeRow (brought.objective_stored ready)]
  constructor
  · rintro ⟨notArtificial, notObjective, known⟩
    rcases (mem_scope_phaseOne c).1 ((brought.scope c notArtificial).1 known) with
      same | same | inRow | before
    · exact absurd same notArtificial
    · exact absurd same notObjective
    · exact .inr inRow
    · exact .inl before
  · intro known
    have notArtificial : c ≠ a := by
      rintro rfl
      rw [ready.absent] at known
      exact known.elim ready.new Bool.false_ne_true
    have notObjective : c ≠ .artificialObjective := by
      rintro rfl
      rw [ready.enterable.objective_absent] at known
      exact known.elim ready.enterable.objective_new Bool.false_ne_true
    exact ⟨notArtificial, notObjective, (brought.scope c notArtificial).2
      ((mem_scope_phaseOne c).2 (.inr (.inr known.symm)))⟩

/-- Withdrawing the artificial column leaves the row as an equation. -/
theorem Ready.inserted (retains : t.Steady → t.Retains (t₂.withdrawn a))
    (still : t.Feasible → row.constant = 0 → (t₂.withdrawn a).basicSolution = t.basicSolution) :
    t.Inserted row (t₂.withdrawn a) where
  toExact := (brought.exact.removeRow _).removeColumn (brought.outside_removeRow ready)
  holds _ := brought.holds_withdrawn ready
  scope _ := brought.mem_scope_withdrawn ready
  objectives c objective := by
    rw [Bool.eq_iff_iff, brought.basic_withdrawn, brought.objectives c objective,
      get?_phaseOne]
    by_cases same : .artificialObjective = c
    · subst same
      simp [ready.idle]
    · have notArtificial : a ≠ c := by
        rintro rfl
        rw [Column.not_objective_of_pivotable ready.pivotable] at objective
        cases objective
      simp [same, Ne.symm same, notArtificial]
  externals c external inside := by
    refine (brought.basic_withdrawn c).2 ⟨?_, brought.externals c external ?_⟩
    · rintro rfl
      cases external
    · rw [get?_phaseOne]
      split
      · rfl
      · split
        · rfl
        · exact inside
  entered := by
    rintro ⟨c, external, inRow⟩
    rw [ready.internal c inRow] at external
    cases external
  recorded recorded key member := by
    rw [withdrawn, infeasible_removeColumn, infeasible_removeRow, Sorted.Set.mem_erase] at member
    refine brought.recorded ?_ key member.2
    intro key member
    rw [phaseOne, infeasible_insertRow, infeasible_insertRow] at member
    exact recorded key member
  retains := retains
  still := still

end

/-! ### Rows that are refused -/

/-- A row is left as the definition of an artificial column. -/
structure Stranded (t : Tableau Rat) (row : Row Rat) (a : Column) (t' : Tableau Rat) : Prop
    extends t'.Exact where
  pivotable : a.isPivotable = true
  holds : ∀ σ, t'.Holds σ ↔ t.Holds σ ∧ σ a = row.eval σ
  scope : ∀ c, c ∈ t'.scope ↔ c = a ∨ row.terms.contains c = true ∨ c ∈ t.scope
  objectives : ∀ c, c.isObjective = true → (t'.rows.get? c).isSome = (t.rows.get? c).isSome
  shaped : t.Shaped → t'.Shaped

/-- Withdrawing an artificial column that is basic only drops the objective of the first phase. -/
theorem Ready.stranded (ready : t.Ready row a) (turns : (t.phaseOne row a).Turns t₂)
    (feasible : (t.phaseOne row a).Feasible → t₂.Feasible) (basic : (t₂.rows.get? a).isSome) :
    t.Stranded row a (t₂.withdrawn a) := by
  have enterable := ready.enterable
  have exact := turns.exact ready.phaseOne_exact
  have apart : a ≠ .artificialObjective := ne_artificialObjective ready.pivotable
  have stored : (t₂.rows.get? .artificialObjective).isSome := by
    rw [turns.basic_eq ready.phaseOne_exact rfl, enterable.objective_found]
    rfl
  obtain ⟨goal, found⟩ := Option.isSome_iff_exists.1 stored
  have same : t₂.withdrawn a = t₂.removeRow .artificialObjective := by
    refine (exact.removeRow _).removeColumn_of_basic ?_
      (Column.not_external_of_restricted (Column.restricted_of_pivotable ready.pivotable))
    rwa [get?_removeRow, if_neg (Ne.symm apart)]
  rw [same]
  refine
    { toExact := exact.removeRow _
      pivotable := ready.pivotable
      holds := fun σ => ?_
      scope := fun c => ?_
      objectives := fun c objective => ?_
      shaped := fun start => ?_ }
  · have each (x : Rat) : t₂.Holds (Function.update σ .artificialObjective x) ↔
        t.Holds σ ∧ x = row.eval σ ∧ σ a = row.eval σ := by
      rw [turns.holds ready.phaseOne_exact, enterable.holds_phaseOne,
        ready.exact.holds_update_of_new enterable.objective_new, Row.eval_update_assignment,
        Row.coefficient_of_not_contains enterable.objective_absent, zero_mul, add_zero,
        Function.update_self, Function.update_of_ne apart]
    rw [holds_removeRow exact.toWellFormed found]
    simp only [each]
    simp
  · rw [exact.mem_scope_removeRow stored, turns.scope_eq ready.phaseOne_exact, mem_scope_phaseOne]
    constructor
    · rintro ⟨different, known | known | known⟩
      · exact .inl known
      · exact absurd known different
      · exact .inr known
    · intro known
      refine ⟨?_, known.imp_right .inr⟩
      rintro rfl
      rcases known with same | inRow | before
      · exact apart same.symm
      · rw [enterable.objective_absent] at inRow
        cases inRow
      · exact enterable.objective_new before
  · rw [get?_removeRow]
    split
    · next own => rw [← own, ready.idle]
    · next other =>
        have notArtificial : a ≠ c := by
          rintro rfl
          rw [Column.not_objective_of_pivotable ready.pivotable] at objective
          cases objective
        rw [turns.basic_eq ready.phaseOne_exact (Column.not_pivotable_of_objective objective),
          get?_phaseOne, if_neg notArtificial, if_neg other]
  · have first := ready.shaped_phaseOne start
    refine (first.turns ready.phaseOne_exact turns (feasible first.feasible)).of_rows
      fun key row' _ kept => ?_
    rw [get?_removeRow] at kept
    split at kept
    · cases kept
    · exact kept

/-! ### Taking the artificial column out of the basis -/

section

variable (turns : t.Turns t') (exact : t.Exact)
include turns exact

theorem Turns.brought (outside : t'.rows.get? a = none) : Brought t t' a where
  exact := turns.exact exact
  outside := outside
  holds σ _ := turns.holds exact σ
  scope c _ := by rw [turns.scope_eq exact]
  objectives _ objective := turns.basic_eq exact (Column.not_pivotable_of_objective objective)
  externals _ external inside := by
    rw [turns.basic_eq exact (Column.not_pivotable_of_external external), inside]
  recorded := turns.recorded exact

/-- A last pivot takes the artificial column out of the basis. -/
theorem Turns.brought_pivoted (pivotable : a.isPivotable = true)
    (pivotal : t'.Pivotal entry a row) : Brought t (t'.pivoted entry a row) a where
  exact := (turns.exact exact).pivoted pivotal
  outside := (turns.exact exact).exit_not_basic_pivoted pivotal
  holds σ _ := ((turns.exact exact).holds_pivoted pivotal).trans (turns.holds exact σ)
  scope c _ := by rw [(turns.exact exact).scope_pivoted pivotal, turns.scope_eq exact]
  objectives c objective := by
    have entryNe : c ≠ entry := by
      rintro rfl
      rw [(turns.exact exact).noObjective a c pivotal.mentions] at objective
      cases objective
    have exitNe : c ≠ a := by
      rintro rfl
      rw [pivotal.plain] at objective
      cases objective
    rw [(turns.exact exact).get?_pivoted_of_ne row entryNe exitNe, Option.isSome_map,
      turns.basic_eq exact (Column.not_pivotable_of_objective objective)]
  externals c external inside := by
    have fixed := Column.not_pivotable_of_external external
    refine ((turns.exact exact).basic_pivoted entry a row c).2 (.inr ⟨?_, ?_⟩)
    · rintro rfl
      rw [fixed] at pivotable
      cases pivotable
    · rw [turns.basic_eq exact fixed, inside]
  recorded recorded :=
    (turns.exact exact).recorded_pivoted entry a row (turns.recorded exact recorded)

/-- An artificial row that mentions nothing and is zero can be dropped. -/
theorem Turns.brought_removeRow (pivotable : a.isPivotable = true)
    (found : t'.rows.get? a = some row) (empty : ∀ c, row.coefficient c = 0)
    (zero : row.constant = 0) : Brought t (t'.removeRow a) a where
  exact := (turns.exact exact).removeRow a
  outside := by rw [get?_removeRow, if_pos rfl]
  holds σ atZero := by
    rw [holds_removeRow (turns.exact exact).toWellFormed found, ← turns.holds exact]
    constructor
    · rintro ⟨x, holds⟩
      have own := holds a row found
      rw [Function.update_self, Row.eval_eq_sum row _ ∅ fun c nonzero => absurd (empty c) nonzero,
        zero, Finset.sum_empty, add_zero] at own
      rwa [own, ← atZero, Function.update_eq_self] at holds
    · intro holds
      exact ⟨σ a, by rwa [Function.update_eq_self]⟩
  scope c different := by
    rw [(turns.exact exact).mem_scope_removeRow (by rw [found]; rfl), turns.scope_eq exact]
    exact and_iff_right different
  objectives c objective := by
    rw [get?_removeRow, if_neg,
      turns.basic_eq exact (Column.not_pivotable_of_objective objective)]
    rintro rfl
    rw [Column.not_objective_of_pivotable pivotable] at objective
    cases objective
  externals c external inside := by
    have fixed := Column.not_pivotable_of_external external
    rw [get?_removeRow, if_neg, turns.basic_eq exact fixed, inside]
    rintro rfl
    rw [fixed] at pivotable
    cases pivotable
  recorded recorded key member := by
    rw [infeasible_removeRow, Sorted.Set.mem_erase] at member
    exact turns.recorded exact recorded key member.2

end

/-- Withdrawing an artificial column outside the basis and its objective moves nothing else. -/
theorem Exact.basicSolution_withdrawn (exact : t.Exact) (different : c ≠ .artificialObjective) :
    (t.withdrawn a).basicSolution c = t.basicSolution c := by
  rw [withdrawn, (exact.removeRow .artificialObjective).basicSolution_removeColumn,
    basicSolution_removeRow different]

/-- Withdrawing an artificial column makes no row mention anything. -/
theorem WellFormed.mentions_of_mentions_withdrawn (wf : t.WellFormed)
    (mentioned : (t.withdrawn a).Mentions key c) : c ≠ a ∧ t.Mentions key c := by
  obtain ⟨different, before⟩ := (mentions_removeColumn (wf.removeRow _)).1 mentioned
  exact ⟨different, (mentions_removeRow.1 before).2⟩

/-- Withdrawing the artificial column leaves a steady tableau, if no other row of a dummy mentions what is
not a dummy. -/
theorem Exact.retains_withdrawn (exact : t.Exact) (sheltered : t.Sheltered) (upright : t.Upright)
    (mentions : ∀ key c, key.isDummy = true → t.Mentions key c → c = a ∨ c.isDummy = true) :
    t.Retains (t.withdrawn a) := by
  have kept {c : Column} (restricted : c.isRestricted = true) :
      (t.withdrawn a).basicSolution c = t.basicSolution c := by
    refine exact.basicSolution_withdrawn ?_
    rintro rfl
    cases restricted
  refine ⟨⟨fun key c restricted mention => ?_, fun key c dummy mention => ?_,
    upright_iff.2 fun c restricted => ?_⟩, fun c dummy => kept (Column.restricted_of_dummy dummy)⟩
  · exact sheltered key c restricted (exact.mentions_of_mentions_withdrawn mention).2
  · obtain ⟨different, before⟩ := exact.mentions_of_mentions_withdrawn mention
    exact (mentions key c dummy before).resolve_left different
  · rw [kept restricted]
    exact upright.nonneg restricted

/-- The pivot that takes the artificial column out at zero moves nothing. -/
theorem Exact.still_pivoted (exact : t.Exact) (pivotal : t.Pivotal entry a row)
    (zero : row.constant = 0) : (t.pivoted entry a row).basicSolution = t.basicSolution := by
  rw [exact.basicSolution_pivoted pivotal, zero, neg_zero, zero_div, ray_zero]

theorem Steady.retains_withdrawn (steady : t.Steady) (exact : t.Exact) (a : Column) :
    t.Retains (t.withdrawn a) :=
  exact.retains_withdrawn steady.sheltered steady.upright fun key c dummy mentioned =>
    .inr (steady.insulated key c dummy mentioned)

/-- That pivot prefers a pivotable column, so that a dummy enters only where nothing but dummies is
mentioned. -/
theorem Exact.retains_withdrawn_pivoted (exact : t.Exact) (steady : t.Steady)
    (pivotal : t.Pivotal entry a row) (pivotable : a.isPivotable = true) (zero : row.constant = 0)
    (preferred : entry.isPivotable = true ∨ ∀ c, t.Mentions a c → c.isPivotable = false) :
    t.Retains ((t.pivoted entry a row).withdrawn a) := by
  have restricted := Column.restricted_of_pivotable pivotable
  have same := exact.still_pivoted pivotal zero
  have dummies : (∀ c, t.Mentions a c → c.isPivotable = false) →
      ∀ c, t.Mentions a c → c.isDummy = true := fun fixed c mentioned =>
    (Column.pivotable_or_dummy (Column.restricted_of_internal
      (steady.sheltered a c restricted mentioned) (exact.noObjective a c mentioned))).resolve_left
        (by rw [fixed c mentioned]; exact Bool.false_ne_true)
  have retains : (t.pivoted entry a row).Retains ((t.pivoted entry a row).withdrawn a) := by
    refine (exact.pivoted pivotal).retains_withdrawn
      (steady.sheltered.pivoted exact.toWellFormed pivotal restricted)
      (upright_iff.2 fun c restricted => by rw [same]; exact steady.upright.nonneg restricted)
      fun key c dummy mentioned => ?_
    rcases preferred with enters | fixed
    · exact .inr (steady.insulated.pivoted exact.toWellFormed pivotal
        (Column.not_dummy_of_pivotable enters) key c dummy mentioned)
    · have fromExit : c = a ∨ t.Mentions a c → c = a ∨ c.isDummy = true :=
        fun source => source.imp_right (dummies fixed c)
      rcases exact.mentions_of_mentions_pivoted pivotal mentioned with
        ⟨-, source⟩ | ⟨-, -, kept | ⟨-, source⟩⟩
      · exact fromExit source
      · exact .inr (steady.insulated key c dummy kept)
      · exact fromExit source
  exact ⟨retains.toSteady, fun c dummy => by rw [retains.dummies c dummy, same]⟩

/-! ### What the first phase leaves in place -/

namespace Ready

variable (ready : t.Ready row a)
include ready

/-- The turns of the first phase keep a tableau steady. -/
theorem retains_turns (turns : (t.phaseOne row a).Turns t₂)
    (feasible : (t.phaseOne row a).Feasible → t₂.Feasible) (steady : t.Steady) : t.Retains t₂ := by
  have first := ready.retains_phaseOne steady
  exact first.trans (first.toSteady.turns ready.phaseOne_exact turns (feasible first.toSteady.feasible))

/-- A row that is zero is least where the first phase starts, which therefore moves nothing. -/
theorem still_turns (turns : (t.phaseOne row a).Turns t₂)
    (feasible : (t.phaseOne row a).Feasible → t₂.Feasible)
    (lowers : (t.phaseOne row a).Feasible → (t.phaseOne row a).Lowers .artificialObjective t₂)
    (start : t.Feasible) (zero : row.constant = 0) : t₂.basicSolution = t.basicSolution := by
  have first := ready.feasible_phaseOne start
  have holds := (turns.exact ready.phaseOne_exact).holds_basicSolution
  have least : (t.phaseOne row a).basicSolution .artificialObjective ≤
      t₂.basicSolution .artificialObjective := by
    rw [basicSolution_of_basic ready.enterable.objective_found, zero,
      ready.enterable.objective_eq ((turns.holds ready.phaseOne_exact _).1 holds)]
    exact feasible first a ready.pivotable
  rw [(lowers first).basicSolution_eq least, ready.still_phaseOne zero]

/-- Withdrawing the artificial column moves nothing. -/
theorem still_withdrawn (exact : t₂.Exact) (same : t₂.basicSolution = t.basicSolution) :
    (t₂.withdrawn a).basicSolution = t.basicSolution := by
  funext c
  by_cases own : c = .artificialObjective
  · subst own
    rw [withdrawn, (exact.removeRow .artificialObjective).basicSolution_removeColumn,
      basicSolution_removeRow_self, basicSolution_of_not_basic ready.idle]
  · rw [exact.basicSolution_withdrawn own, same]

end Ready

end SoftSimplex.Tableau
