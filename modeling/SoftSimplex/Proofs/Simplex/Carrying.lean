import SoftSimplex.Proofs.Simplex.Marking

/-!
Solvers whose tableaus represent posed constraints.

`Carries` joins what a tableau represents with the numbering of its columns. A constraint whose columns
were numbered, and whose errors cost its weight, joins the family when its row is put in, or else no
assignment meets it together with the required constraints of the family (`Carries.posing`).
-/

namespace SoftSimplex

namespace Tableau

variable {t t' : Tableau Rat} {c column : Column} {errors : List Column} {weight : Rat}

/-! ### Penalties and the rest of the tableau -/

/-- What penalties leave alone. -/
theorem WellFormed.penalized (wf : t.WellFormed) (stored : (t.rows.get? .objective).isSome)
    (plain : ∀ c ∈ errors, c.isObjective = false) (weight : Rat) :
    (t.penalized weight errors).WellFormed ∧ t.Apart (t.penalized weight errors) .objective ∧
      ∀ c ∈ (t.penalized weight errors).scope, c ∈ errors ∨ c ∈ t.scope := by
  induction errors generalizing t with
  | nil =>
      exact ⟨wf, ⟨fun _ _ => rfl, stored, rfl, rfl, rfl, rfl, fun _ => id⟩, fun _ known =>
        .inr known⟩
  | cons error rest ih =>
      obtain ⟨goal, found⟩ := Option.isSome_iff_exists.1 stored
      have own := plain error List.mem_cons_self
      have apart := wf.apart_addToObjective found own weight
      obtain ⟨wf', apart', known'⟩ := ih (wf.addToObjective found own weight) apart.stored
        fun c member => plain c (List.mem_cons_of_mem _ member)
      refine ⟨wf', apart.trans apart', fun c known => ?_⟩
      rcases known' c known with later | before
      · exact .inl (List.mem_cons_of_mem _ later)
      · rcases wf.mem_scope_addToObjective found own weight before with rfl | older
        · exact .inl List.mem_cons_self
        · exact .inr older

theorem Apart.unused (apart : t.Apart t' .objective) (unused : t.Unused c)
    (plain : c.isObjective = false) : t'.Unused c where
  outside := by
    rw [apart.others, unused.outside]
    rintro rfl
    cases plain
  unmentioned key other mentioned := by
    refine unused.unmentioned key other ?_
    obtain ⟨row, found, present⟩ := mentions_iff.1 mentioned
    rw [apart.others key (by rintro rfl; cases other)] at found
    exact mentions_iff.2 ⟨row, found, present⟩

theorem Apart.basicSolution_eq (apart : t.Apart t' .objective) (plain : c.isObjective = false) :
    t'.basicSolution c = t.basicSolution c := by
  have different : c ≠ .objective := by
    rintro rfl
    cases plain
  rw [basicSolution, basicSolution, extend, extend, apart.others c different]

theorem Apart.retains (apart : t.Apart t' .objective) (steady : t.Steady) : t.Retains t' where
  toSteady := steady.of_rows fun key row restricted found => by
    rwa [apart.others key] at found
    rintro rfl
    cases restricted
  dummies _ dummy := apart.basicSolution_eq
    (Column.not_objective_of_restricted (Column.restricted_of_dummy dummy))

theorem Apart.upright (apart : t.Apart t' .objective) (upright : t.Upright) : t'.Upright :=
  upright_iff.2 fun c restricted => by
    rw [apart.basicSolution_eq (Column.not_objective_of_restricted restricted)]
    exact upright_iff.1 upright c restricted

theorem Apart.feasible (apart : t.Apart t' .objective) (feasible : t.Feasible) : t'.Feasible :=
  fun c pivotable => by
    rw [apart.basicSolution_eq (Column.not_objective_of_pivotable pivotable)]
    exact feasible c pivotable

theorem Apart.shaped (apart : t.Apart t' .objective) (shaped : t.Shaped) : t'.Shaped :=
  (apart.retains shaped.steady).shaped shaped

theorem Exact.unused_of_not_mem_scope (exact : t.Exact) (new : c ∉ t.scope) : t.Unused c where
  outside := not_basic_of_not_mem_scope new
  unmentioned _ _ mentioned := new (exact.mem_scope_of_mentions mentioned)

end Tableau

namespace Simplex

open Tableau

variable {s s₁ s' : Simplex Rat} {posed : List Posed} {goal goal' : (Column → Rat) → Rat} {p : Posed}

/-- A solver whose tableau represents a family of posed constraints, all of whose columns were
numbered. -/
structure Carries (s : Simplex Rat) (posed : List Posed) (goal : (Column → Rat) → Rat) : Prop where
  represents : s.tableau.Represents posed goal
  family : Family posed
  fresh : s.Fresh
  below : ∀ p ∈ posed, ∀ c ∈ p.columns, c.Below s.nextSerial

theorem Carries.congr (carries : s.Carries posed goal) (same : ∀ σ, goal' σ = goal σ) :
    s.Carries posed goal' :=
  (funext same : goal' = goal) ▸ carries

theorem Carries.perm {other : List Posed} (carries : s.Carries posed goal)
    (perm : posed.Perm other) : s.Carries other goal :=
  ⟨carries.represents.perm perm, carries.family.perm perm, carries.fresh,
    fun p member => carries.below p (perm.mem_iff.2 member)⟩

/-- A column was made, and the tableau does not know of it yet. -/
structure Made (s : Simplex Rat) (column : Column) (s₁ : Simplex Rat) : Prop where
  keeps : s.Keeps s₁
  flag : s₁.needsOptimize = s.needsOptimize
  tableau : s₁.tableau = s.tableau
  numbered : column.Numbered s.nextSerial s₁.nextSerial

theorem run_freshSlack (s : Simplex Rat) : ∃ column s₁,
    freshSlack.run s = (.ok column, s₁) ∧ s.Made column s₁ ∧ column.isSlack = true :=
  ⟨_, _, rfl, ⟨⟨rfl, rfl, rfl, Nat.le_succ _⟩, rfl, rfl, ⟨_, rfl, le_rfl, Nat.lt_succ_self _⟩⟩, rfl⟩

theorem run_freshDummy (s : Simplex Rat) : ∃ column s₁,
    freshDummy.run s = (.ok column, s₁) ∧ s.Made column s₁ ∧ column.isDummy = true :=
  ⟨_, _, rfl, ⟨⟨rfl, rfl, rfl, Nat.le_succ _⟩, rfl, rfl, ⟨_, rfl, le_rfl, Nat.lt_succ_self _⟩⟩, rfl⟩

/-- A solver carries what it carried, after turns of its tableau. -/
theorem Carries.turns (carries : s.Carries posed goal) (turns : s.tableau.Turns s'.tableau)
    (serial : s'.nextSerial = s.nextSerial) : s'.Carries posed goal where
  represents := carries.represents.turns turns
  family := carries.family
  fresh c known := by
    rw [turns.scope_eq carries.represents.toExact] at known
    rw [serial]
    exact carries.fresh c known
  below := by
    rw [serial]
    exact carries.below

/-- The columns of a constraint were numbered, and its errors cost its weight. -/
structure Prepared (s : Simplex Rat) (p : Posed) (s₁ : Simplex Rat) : Prop where
  keeps : s.Keeps s₁
  flag : s₁.needsOptimize = s.needsOptimize
  columns : ∀ c ∈ p.columns, c.Numbered s.nextSerial s₁.nextSerial
  penalized : ∃ errors, errors.Perm p.markers.errors ∧
    s₁.tableau = s.tableau.penalized (p.markers.weight.getD 0) errors

/-- The row of a posed constraint. -/
def posedRow (s : Simplex Rat) (p : Posed) : Row Rat :=
  oriented (p.markers.mark (s.tableau.reduced p.constraint))

theorem contains_posedRow {c : Column} : (s.posedRow p).terms.contains c = true ↔
    c ∈ p.columns ∨ (s.tableau.reduced p.constraint).terms.contains c = true := by
  rw [posedRow, contains_oriented, Markers.mark, Row.contains_insertAll,
    Markers.map_terms_eq_columns, Posed.columns]

/-- What putting the row of a prepared constraint in may come to. -/
inductive Posing (s : Simplex Rat) (posed : List Posed) (goal : (Column → Rat) → Rat) (p : Posed)
    (s₁ : Simplex Rat) : Except (Fault Rat) Unit × Simplex Rat → Prop where
  | posed {s' : Simplex Rat} (keeps : s.Keeps s') (needed : s'.needsOptimize = true)
      (carries : s'.Carries (p :: posed) fun σ => goal σ + p.cost σ)
      (inserted : s₁.tableau.Inserted (s.posedRow p) s'.tableau)
      (retains : s.tableau.Steady → s.tableau.Retains s'.tableau)
      (still : s.tableau.Feasible → p.gap (onVariables s.tableau.basicSolution) = 0 →
        ∀ c, c.isObjective = false → s'.tableau.basicSolution c = s.tableau.basicSolution c)
      (recorded : s.tableau.Recorded → s'.tableau.Recorded) :
      Posing s posed goal p s₁ (.ok (), s')
  | refused {fault : Fault Rat} {s' : Simplex Rat}
      (missed : s.tableau.Feasible → p.gap (onVariables s.tableau.basicSolution) ≠ 0)
      (reason : s.tableau.Shaped → fault.isInfeasible = true ∧
        ∀ x, ¬MeetsRequired (p :: posed) x) : Posing s posed goal p s₁ (.error fault, s')

section

variable (carries : s.Carries posed goal) (fits : p.Fits) (unmoved : p.shift = 0)
  (newTag : ∀ q ∈ posed, q.constraint.tag ≠ p.constraint.tag) (prepared : s.Prepared p s₁)
include carries prepared

theorem Prepared.not_mem_scope (c : Column) (own : c ∈ p.columns) : c ∉ s.tableau.scope :=
  fun known => (prepared.columns c own).not_below (carries.fresh c known)

omit carries in
include fits in
/-- Nothing is added to the objective for a required constraint. -/
theorem Prepared.tableau_eq (free : p.markers.weight = none) : s₁.tableau = s.tableau := by
  obtain ⟨errors, perm, same⟩ := prepared.penalized
  rw [Markers.Fits.errors_eq_nil fits free, List.perm_nil] at perm
  rw [same, perm]
  rfl

omit carries in
include fits in
/-- Only the objective is touched while the columns are made. -/
theorem Prepared.apart (wf : s.tableau.WellFormed) (stored : (s.tableau.rows.get? .objective).isSome) :
    s.tableau.Apart s₁.tableau .objective := by
  obtain ⟨errors, perm, same⟩ := prepared.penalized
  rw [same]
  exact (wf.penalized stored (fun c error => Column.not_objective_of_restricted
    (Markers.Fits.restricted fits (Markers.Fits.errors_subset fits (perm.subset error)))) _).2.1

include fits in
theorem Prepared.not_contains_reduced (c : Column) (own : c ∈ p.columns) :
    (s.tableau.reduced p.constraint).terms.contains c = false := by
  rw [← Bool.not_eq_true]
  intro present
  rcases (carries.represents.expresses_reduced p.constraint).known c present with external | known
  · rw [Column.not_external_of_restricted (Markers.Fits.restricted fits own)] at external
    cases external
  · exact prepared.not_mem_scope carries c own known

omit carries in
/-- The columns of a prepared row were numbered. -/
theorem Prepared.below_of_contains (fresh : ∀ c ∈ s₁.tableau.scope, c.Below s₁.nextSerial)
    (known : ∀ c, (s.tableau.reduced p.constraint).terms.contains c = true →
      c.isExternal = true ∨ c ∈ s₁.tableau.scope) (c : Column)
    (present : (s.posedRow p).terms.contains c = true) : c.Below s₁.nextSerial := by
  rcases contains_posedRow.1 present with own | inRow
  · exact (prepared.columns c own).below
  · rcases known c inRow with external | inScope
    · cases c with
      | external v => trivial
      | symbol s => cases external
    · exact fresh c inScope

include fits in
theorem Carries.apart_prepared :
    s₁.tableau.Exact ∧ s.tableau.Apart s₁.tableau .objective ∧
      (∀ c ∈ s₁.tableau.scope, c.Below s₁.nextSerial) ∧
      s₁.tableau.Expresses p.constraint (s.tableau.reduced p.constraint) ∧
      s₁.tableau.Represents posed fun σ => goal σ + p.cost σ := by
  obtain ⟨errors, perm, same⟩ := prepared.penalized
  have own : ∀ c ∈ errors, c ∈ p.columns := fun c error =>
    Markers.Fits.errors_subset fits (perm.subset error)
  have plain : ∀ c ∈ errors, c.isObjective = false := fun c error =>
    Column.not_objective_of_restricted (Markers.Fits.restricted fits (own c error))
  have represents := carries.represents
  have exact := represents.toExact
  obtain ⟨wf', apart, known⟩ := exact.toWellFormed.penalized represents.stored plain
    (p.markers.weight.getD 0)
  rw [same]
  refine ⟨⟨wf', apart.tolerance.trans exact.exact⟩, apart, fun c member => ?_, ?_, ?_⟩
  · rcases known c member with error | before
    · exact (prepared.columns c (own c error)).below
    · exact (carries.fresh c before).mono prepared.keeps.serial
  · exact (exact.expresses_reduced p.constraint).penalized exact represents.stored plain _
  · refine (represents.penalized carries.family plain _).congr fun σ => ?_
    rw [Posed.cost, (perm.map σ).sum_eq]

include fits newTag in
theorem Carries.family_prepared : Family (p :: posed) :=
  carries.family.cons fits newTag fun q member c own inQ =>
    (prepared.columns c own).not_below (carries.below q member c inQ)

include fits in
/-- The row of a prepared constraint is put in, or else refused. -/
theorem Carries.insertion :
    Insertion s₁ (s.posedRow p) ((insertRow (s.posedRow p) p.markers.columns).run s₁) := by
  obtain ⟨exact, apart, fresh, expresses, represents⟩ := carries.apart_prepared fits prepared
  have unused : ∀ c ∈ p.columns, s₁.tableau.Unused c := fun c own =>
    apart.unused (carries.represents.unused_of_not_mem_scope
      (prepared.not_mem_scope carries c own)) (Column.not_objective_of_restricted
        (Markers.Fits.restricted fits own))
  have acceptable : s₁.Acceptable (s.posedRow p) :=
    ⟨exact, represents.idle, expresses.insertable fits fun c own => (unused c own).outside, fresh,
      prepared.below_of_contains fresh expresses.known⟩
  exact insertion_insertRow acceptable unused

include fits unmoved in
/-- The row of a prepared constraint, up to its sign, is what an assignment misses of the constraint by
its columns. -/
theorem Carries.eval_posedRow : ∃ sign : Rat, (sign = 1 ∨ sign = -1) ∧
    ∀ σ, s₁.tableau.Holds σ →
      (s.posedRow p).eval σ = sign * (p.gap (onVariables σ) + p.offset σ) := by
  obtain ⟨-, -, -, expresses, -⟩ := carries.apart_prepared fits prepared
  have absent := prepared.not_contains_reduced carries fits
  obtain ⟨sign, unit, oriented⟩ := exists_eval_oriented (p.markers.mark (s.tableau.reduced p.constraint))
  refine ⟨sign, unit, fun σ holds => ?_⟩
  rw [posedRow, oriented, expresses.eval_mark fits unmoved absent holds]

include fits unmoved in
/-- Where a prepared constraint is met without its columns, its row has the constant zero. -/
theorem Carries.constant_posedRow (balanced : p.gap (onVariables s.tableau.basicSolution) = 0) :
    (s.posedRow p).constant = 0 := by
  obtain ⟨exact, apart, -, expresses, -⟩ := carries.apart_prepared fits prepared
  have outside : ∀ c ∈ p.columns, s₁.tableau.rows.get? c = none := fun c own =>
    (apart.unused (carries.represents.unused_of_not_mem_scope
      (prepared.not_mem_scope carries c own)) (Column.not_objective_of_restricted
        (Markers.Fits.restricted fits own))).outside
  have parametric : s₁.tableau.Parametric (s.posedRow p) :=
    (expresses.insertable fits outside).toParametric
  obtain ⟨sign, -, value⟩ := carries.eval_posedRow fits unmoved prepared
  have unknowns : onVariables s₁.tableau.basicSolution = onVariables s.tableau.basicSolution :=
    funext fun v => apart.basicSolution_eq rfl
  have unused : p.offset s₁.tableau.basicSolution = 0 :=
    Posed.offset_eq_zero fun c own => basicSolution_of_not_basic (outside c own)
  rw [← parametric.eval_basicSolution, value _ exact.holds_basicSolution, unknowns, unused,
    balanced, add_zero, mul_zero]

include fits unmoved newTag

/-- A prepared constraint joins the family, unless a shaped tableau cannot meet it. -/
theorem Carries.posing :
    Posing s posed goal p s₁ ((insertRow (s.posedRow p) p.markers.columns).run s₁) := by
  obtain ⟨exact, apart, fresh, expresses, represents⟩ := carries.apart_prepared fits prepared
  have family := carries.family_prepared fits newTag prepared
  have zero_iff : ∀ σ, s₁.tableau.Holds σ → ((s.posedRow p).eval σ = 0 ↔ p.Equation σ) := by
    obtain ⟨sign, unit, value⟩ := carries.eval_posedRow fits unmoved prepared
    intro σ holds
    rw [value σ holds, Posed.Equation]
    rcases unit with rfl | rfl
    · rw [one_mul]
    · rw [neg_one_mul, neg_eq_zero]
  have contained := prepared.below_of_contains fresh expresses.known
  have insertion := carries.insertion fits prepared
  generalize ran : (insertRow (s.posedRow p) p.markers.columns).run s₁ = ended at insertion
  cases insertion with
  | @inserted s' keeps inserted =>
      refine .posed (prepared.keeps.trans keeps) (needsOptimize_insertRow ran)
        ⟨represents.inserted inserted zero_iff, family, fun c known => ?_, fun q member c own => ?_⟩
        inserted (fun steady => ?_) (fun feasible balanced c plain => ?_) fun recorded => ?_
      · exact (((inserted.scope c).1 known).elim (fresh c) (contained c)).mono keeps.serial
      · rcases List.mem_cons.1 member with rfl | old
        · exact (prepared.columns c own).below.mono keeps.serial
        · exact (carries.below q old c own).mono (prepared.keeps.serial.trans keeps.serial)
      · have retains := apart.retains steady
        exact retains.trans (inserted.retains retains.toSteady)
      · rw [inserted.still (apart.feasible feasible)
          (carries.constant_posedRow fits unmoved prepared balanced), apart.basicSolution_eq plain]
      · exact inserted.recorded fun key member =>
          recorded key (by rwa [apart.infeasible] at member)
  | refused nonzero reason _ =>
      refine .refused (fun feasible balanced => nonzero (apart.feasible feasible)
        (carries.constant_posedRow fits unmoved prepared balanced)) fun shaped => ?_
      obtain ⟨infeasible, contradicts⟩ := reason (apart.shaped shaped)
      refine ⟨infeasible, fun x meets => ?_⟩
      -- An assignment that meets every required constraint is completed to one that the row admits.
      obtain ⟨equations, -⟩ := family.completed meets
      have others : ∀ q ∈ posed, q.Equation (completion (p :: posed) x) := fun q member =>
        equations q (List.mem_cons_of_mem _ member)
      have holds := represents.holds_withObjectiveOf carries.family others
      refine (contradicts _ holds ((Family.admissible_completion _ x).withObjectiveOf _)).ne'
        ((zero_iff _ holds).2 ?_)
      exact (equation_update_objective fits _ _).2 (equations p List.mem_cons_self)

end

end Simplex

end SoftSimplex
