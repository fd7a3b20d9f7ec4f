import SoftSimplex.Proofs.Simplex.Carrying

/-!
What a refused constraint leaves behind.

The first phase leaves a row that it refuses as the definition of an artificial column, which is never
negative. So a refused equation stays in the tableau as that one of its sides on which every assignment
lies, and a refused inequality as a wish that costs nothing (`Carries.stranding`). A row that is refused
without the first phase leaves nothing.
-/

namespace SoftSimplex

variable {p q : Posed} {posed : List Posed} {a : Column} {sign : Rat} {x : Variable → Rat}
  {comparator : Comparator}

/-! ### Leftovers -/

/-- A required equation has a dummy for its only column. -/
theorem Markers.Fits.exists_dummy {m : Markers Rat} (fits : m.Fits .required .eq)
    (free : m.weight = none) :
    ∃ dummy, dummy.isDummy = true ∧ m = { main := dummy, sub := some dummy } := by
  generalize equation : Comparator.eq = comparator at fits
  cases fits with
  | @equation dummy isDummy => exact ⟨dummy, isDummy, rfl⟩
  | wishedEquation _ _ _ => cases free
  | bound unequal _ => exact absurd equation.symm unequal
  | wishedBound _ _ _ _ => cases free
  | side lenient _ _ _ => exact absurd rfl lenient
  | turnedSide lenient _ _ _ => exact absurd rfl lenient

/-- A required inequality has a slack for its only column. -/
theorem Markers.Fits.exists_slack {m : Markers Rat} (fits : m.Fits .required comparator)
    (unequal : comparator ≠ .eq) (free : m.weight = none) :
    ∃ slack, slack.isSlack = true ∧ m = { main := slack } := by
  cases fits with
  | equation _ => exact absurd rfl unequal
  | wishedEquation _ _ _ => cases free
  | @bound _ slack _ isSlack => exact ⟨slack, isSlack, rfl⟩
  | wishedBound _ _ _ _ => cases free
  | side lenient _ _ _ => exact absurd rfl lenient
  | turnedSide lenient _ _ _ => exact absurd rfl lenient

namespace Posed

/-- A constraint is left of another one: it costs nothing, and it says that a new column has the value of
the other's row. -/
structure Leftover (p : Posed) (sign : Rat) (a : Column) (q : Posed) : Prop where
  fits : q.Fits
  columns : ∀ c ∈ q.columns, c = a ∨ c ∈ p.columns
  free : q.markers.weight.getD 0 = 0
  equation : ∀ σ, q.Equation σ ↔ σ a = sign * (p.gap (onVariables σ) + p.offset σ)

variable (fits : p.Fits) (wanted : p.constraint.priority = .required) (free : p.markers.weight = none)
  (unmoved : p.shift = 0)
include fits wanted free unmoved

/-- What is left of an equation is one of its sides. -/
theorem exists_leftover_of_equation (equation : p.constraint.comparator = .eq)
    (pivotable : a.isPivotable = true) (unit : sign = 1 ∨ sign = -1) :
    ∃ comparator, comparator ≠ .eq ∧
      (∀ x, 0 ≤ sign * p.gap x ↔ { p.constraint with comparator }.Holds x) ∧
      ∀ tag, ∃ q, q.constraint.tag = tag ∧ q.markers.weight = none ∧
        (∀ x, q.Met x ↔ { p.constraint with comparator }.Holds x) ∧ p.Leftover sign a q := by
  obtain ⟨⟨c, m⟩, shift⟩ := p
  simp only [Fits] at fits wanted free unmoved equation ⊢
  rw [wanted, equation] at fits
  obtain ⟨dummy, isDummy, rfl⟩ := fits.exists_dummy free
  subst unmoved
  have apart := Markers.ne_of_dummy pivotable isDummy
  have gap (x : Variable → Rat) : gap ⟨⟨c, { main := dummy, sub := some dummy }⟩, 0⟩ x =
      c.left.eval x - c.right.eval x := by
    rw [Posed.gap]
    dsimp only
    rw [equation, Row.residualSign, one_mul, add_zero]
  have offset (σ : Column → Rat) :
      offset ⟨⟨c, { main := dummy, sub := some dummy }⟩, 0⟩ σ = σ dummy := by
    simp [Posed.offset, Markers.terms_same]
  have own : dummy ∈ columns ⟨⟨c, { main := dummy, sub := some dummy }⟩, 0⟩ :=
    Markers.main_mem_columns _
  have met {priority : Priority} {comparator : Comparator} {tag : Tag} {m : Markers Rat}
      (x : Variable → Rat) : Met ⟨⟨{ c with tag, priority, comparator }, m⟩, 0⟩ x ↔
        { c with comparator }.Holds x := met_of_unmoved rfl x
  rcases unit with rfl | rfl
  · refine ⟨.ge, by simp, fun x => ?_, fun tag =>
      ⟨⟨⟨{ c with tag, priority := .optional 0, comparator := .ge }, { main := a, sub := some dummy }⟩, 0⟩,
        rfl, rfl, met, .side (by simp) (by simp) pivotable isDummy, fun d inside => ?_, rfl,
        fun σ => ?_⟩⟩
    · rw [gap, one_mul, sub_nonneg]
      rfl
    · rw [Posed.columns, Markers.columns_pair apart, List.mem_pair] at inside
      rcases inside with rfl | rfl
      · exact .inl rfl
      · exact .inr own
    · rw [gap, offset, Equation, Posed.gap, Posed.offset,
        Markers.terms_pair apart (Column.not_dummy_of_pivotable pivotable)]
      simp only [Row.residualSign, List.map_cons, List.map_nil, List.sum_cons, List.sum_nil]
      constructor <;> intro same <;> linarith
  · refine ⟨.le, by simp, fun x => ?_, fun tag =>
      ⟨⟨⟨{ c with tag, priority := .optional 0, comparator := .le }, { main := dummy, sub := some a }⟩, 0⟩,
        rfl, rfl, met, .turnedSide (by simp) (by simp) pivotable isDummy, fun d inside => ?_, rfl,
        fun σ => ?_⟩⟩
    · rw [gap, neg_one_mul, neg_sub, sub_nonneg]
      rfl
    · rw [Posed.columns, Markers.columns_pair apart.symm, List.mem_pair] at inside
      rcases inside with rfl | rfl
      · exact .inr own
      · exact .inl rfl
    · rw [gap, offset, Equation, Posed.gap, Posed.offset, Markers.terms_pair_of_dummy apart.symm isDummy]
      simp only [Row.residualSign, List.map_cons, List.map_nil, List.sum_cons, List.sum_nil]
      constructor <;> intro same <;> linarith

/-- What is left of an inequality whose row was negative is a wish that costs nothing. -/
theorem exists_leftover_of_bound (unequal : p.constraint.comparator ≠ .eq)
    (pivotable : a.isPivotable = true) (new : a ∉ p.columns) (tag : Tag) :
    ∃ q, q.constraint.tag = tag ∧ q.markers.weight = some 0 ∧ p.Leftover (-1) a q := by
  obtain ⟨⟨c, m⟩, shift⟩ := p
  simp only [Fits] at fits wanted free unmoved unequal ⊢
  rw [wanted] at fits
  obtain ⟨slack, isSlack, rfl⟩ := fits.exists_slack unequal free
  subst unmoved
  have own : slack ∈ columns ⟨⟨c, { main := slack }⟩, 0⟩ := Markers.main_mem_columns _
  have apart : a ≠ slack := fun same => new (same ▸ own)
  have plain := Column.not_dummy_of_pivotable (Column.pivotable_of_slack isSlack)
  refine ⟨⟨⟨{ c with tag }, { main := slack, sub := some a, errors := [a], weight := some 0 }⟩, 0⟩, rfl,
    rfl, .wishedBound unequal isSlack pivotable apart, fun d inside => ?_, rfl, fun σ => ?_⟩
  · rw [Posed.columns, Markers.columns_pair apart, List.mem_pair] at inside
    rcases inside with rfl | rfl
    · exact .inr own
    · exact .inl rfl
  · rw [Equation, Posed.gap, Posed.gap, Posed.offset, Posed.offset, Markers.terms_single,
      Markers.terms_pair apart plain]
    simp only [List.map_cons, List.map_nil, List.sum_cons, List.sum_nil]
    constructor <;> intro same <;> linarith

end Posed

namespace Tableau

variable {t t' : Tableau Rat} {row : Row Rat} {goal : (Column → Rat) → Rat} {σ : Column → Rat}
  {slack : Column} {value : Rat}

/-- A slack may take any value that is not negative. -/
theorem Admissible.update_of_slack (admissible : Admissible σ) (isSlack : slack.isSlack = true)
    (nonneg : 0 ≤ value) : Admissible (Function.update σ slack value) where
  nonneg c pivotable := by
    by_cases same : c = slack
    · rw [same, Function.update_self]
      exact nonneg
    · rw [Function.update_of_ne same]
      exact admissible.nonneg c pivotable
  zero c dummy := by
    rw [Function.update_of_ne, admissible.zero c dummy]
    rintro rfl
    rw [Column.not_dummy_of_pivotable (Column.pivotable_of_slack isSlack)] at dummy
    cases dummy

/-- A row that was left as the definition of a column joins the constraints as a leftover. -/
theorem Represents.stranded (represents : t.Represents posed goal) (stranded : t.Stranded row a t')
    (expresses : ∀ σ, t.Holds σ → (σ a = row.eval σ ↔ q.Equation σ)) :
    t'.Represents (q :: posed) goal :=
  represents.extended stranded.toExact stranded.holds stranded.objectives expresses

end Tableau

namespace Simplex

open Tableau

variable {s s₁ s' : Simplex Rat} {goal : (Column → Rat) → Rat} {fault : Fault Rat}

/-- What a refused constraint leaves with a solver, by the fault that refused it. -/
inductive Stranding (posed : List Posed) (goal : (Column → Rat) → Rat) (c : Constraint Rat)
    (s' : Simplex Rat) : Fault Rat → Prop where
  | nothing {row : Row Rat} (carries : s'.Carries posed goal) :
      Stranding posed goal c s' (.infeasibleRow row)
  | bound (unequal : c.comparator ≠ .eq)
      (left : ∀ tag, (∀ r ∈ posed, r.constraint.tag ≠ tag) → ∃ q, q.constraint.tag = tag ∧
        q.markers.weight = some 0 ∧ s'.Carries (q :: posed) goal) :
      Stranding posed goal c s' .infeasible
  | side {comparator : Comparator} (equation : c.comparator = .eq) (unequal : comparator ≠ .eq)
      (lies : ∀ x, MeetsRequired posed x → { c with comparator }.Holds x)
      (left : ∀ tag, (∀ r ∈ posed, r.constraint.tag ≠ tag) → ∃ q, q.constraint.tag = tag ∧
        q.markers.weight = none ∧ (∀ x, q.Met x ↔ { c with comparator }.Holds x) ∧
          s'.Carries (q :: posed) goal) :
      Stranding posed goal c s' .infeasible

variable (carries : s.Carries posed goal) (fits : p.Fits) (unmoved : p.shift = 0)
  (prepared : s.Prepared p s₁) (free : p.markers.weight = none)

include carries fits prepared free

/-- A leftover joins the family of a solver. -/
theorem Carries.leftover (leftover : p.Leftover sign a q)
    (value : ∀ σ, s₁.tableau.Holds σ →
      (s.posedRow p).eval σ = sign * (p.gap (onVariables σ) + p.offset σ))
    (newTag : ∀ r ∈ posed, r.constraint.tag ≠ q.constraint.tag) (keeps : s₁.Keeps s')
    (numbered : a.Numbered s₁.nextSerial s'.nextSerial)
    (stranded : s₁.tableau.Stranded (s.posedRow p) a s'.tableau) : s'.Carries (q :: posed) goal := by
  have same := prepared.tableau_eq fits free
  obtain ⟨-, -, fresh, expresses, -⟩ := carries.apart_prepared fits prepared
  have contained := prepared.below_of_contains fresh expresses.known
  rw [same] at fresh value stranded
  refine ⟨carries.represents.stranded stranded fun σ holds => ?_, carries.family.cons leftover.fits newTag
    fun r member c own inOld => ?_, fun c known => ?_, fun r member c own => ?_⟩
  · rw [value σ holds]
    exact (leftover.equation σ).symm
  · have below := carries.below r member c inOld
    rcases leftover.columns c own with rfl | before
    · exact numbered.not_below (below.mono prepared.keeps.serial)
    · exact (prepared.columns c before).not_below below
  · rcases (stranded.scope c).1 known with rfl | present | before
    · exact numbered.below
    · exact (contained c present).mono keeps.serial
    · exact (fresh c before).mono keeps.serial
  · rcases List.mem_cons.1 member with rfl | old
    · rcases leftover.columns c own with rfl | before
      · exact numbered.below
      · exact (prepared.columns c before).below.mono keeps.serial
    · exact (carries.below r old c own).mono (prepared.keeps.serial.trans keeps.serial)

variable (wanted : p.constraint.priority = .required)
  (value : ∀ σ, s₁.tableau.Holds σ →
    (s.posedRow p).eval σ = sign * (p.gap (onVariables σ) + p.offset σ))
  (positive : ∀ σ, s₁.tableau.Holds σ → Admissible σ → 0 < (s.posedRow p).eval σ)

include wanted value positive in
/-- Where the row of an equation is positive, all assignments that meet the required constraints lie on one
side of it. -/
theorem Carries.pos_gap (equation : p.constraint.comparator = .eq) (meets : MeetsRequired posed x) :
    0 < sign * p.gap x := by
  have same := prepared.tableau_eq fits free
  rw [same] at value positive
  rw [Posed.Fits, wanted, equation] at fits
  obtain ⟨dummy, isDummy, markers⟩ := fits.exists_dummy free
  obtain ⟨equations, -⟩ := carries.family.completed meets
  have holds := carries.represents.holds_withObjectiveOf carries.family equations
  have admissible := (Family.admissible_completion posed x).withObjectiveOf goal
  have pos := positive _ holds admissible
  rw [value _ holds, Posed.offset, markers, Markers.terms_same, List.map_singleton, List.sum_singleton,
    admissible.zero dummy isDummy, mul_zero, add_zero, onVariables_withObjectiveOf] at pos
  exact pos

include wanted value positive in
/-- The row of an inequality that is refused was turned, as its slack could take up everything
otherwise. -/
theorem Carries.sign_ne_one (shaped : s.tableau.Shaped) (unequal : p.constraint.comparator ≠ .eq) :
    sign ≠ 1 := by
  rintro rfl
  have same := prepared.tableau_eq fits free
  rw [same] at value positive
  have fits' := fits
  rw [Posed.Fits, wanted] at fits'
  obtain ⟨slack, isSlack, markers⟩ := fits'.exists_slack unequal free
  have own : slack ∈ p.columns := by
    rw [Posed.columns, markers]
    exact Markers.main_mem_columns _
  have exact := carries.represents.toExact
  have taken := le_max_left (p.gap (onVariables s.tableau.basicSolution)) 0
  have nonneg := le_max_right (p.gap (onVariables s.tableau.basicSolution)) 0
  generalize max (p.gap (onVariables s.tableau.basicSolution)) 0 = v at taken nonneg
  have unknowns : onVariables (Function.update s.tableau.basicSolution slack v) =
      onVariables s.tableau.basicSolution := by
    refine funext fun _ => Function.update_of_ne ?_ _ _
    rintro rfl
    cases isSlack
  have holds := (exact.holds_update_of_new (prepared.not_mem_scope carries slack own)
    s.tableau.basicSolution v).2 exact.holds_basicSolution
  have pos := positive _ holds
    ((shaped.admissible exact.toWellFormed).update_of_slack isSlack nonneg)
  rw [value _ holds, Posed.offset, markers, Markers.terms_single, List.map_singleton, List.sum_singleton,
    unknowns, Function.update_self, one_mul, neg_one_mul] at pos
  linarith

include unmoved wanted

/-- What a refused constraint leaves: an equation that the first phase refused leaves a side, and every
other constraint nothing that asks for anything. -/
theorem Carries.stranding (shaped : s.tableau.Shaped)
    (refused : (insertRow (s.posedRow p) p.markers.columns).run s₁ = (.error fault, s')) :
    s.Keeps s' ∧ s'.tableau.Shaped ∧ Stranding posed goal p.constraint s' fault := by
  have same := prepared.tableau_eq fits free
  have insertion := carries.insertion fits prepared
  rw [refused] at insertion
  cases insertion with
  | refused _ reason left =>
      obtain ⟨-, positive⟩ := reason (same ▸ shaped)
      obtain ⟨keeps, remains⟩ := left (same ▸ shaped)
      have kept := prepared.keeps.trans keeps
      cases remains with
      | nothing unchanged =>
          rw [same] at unchanged
          refine ⟨kept, unchanged ▸ shaped, .nothing ⟨unchanged ▸ carries.represents, carries.family,
            fun c known => ?_, fun r member c own => (carries.below r member c own).mono kept.serial⟩⟩
          rw [unchanged] at known
          exact (carries.fresh c known).mono kept.serial
      | @stranded a numbered stranded =>
          obtain ⟨sign, unit, value⟩ := carries.eval_posedRow fits unmoved prepared
          have new : a ∉ p.columns := fun own =>
            numbered.not_below (prepared.columns a own).below
          refine ⟨kept, stranded.shaped (same ▸ shaped), ?_⟩
          by_cases equation : p.constraint.comparator = .eq
          · obtain ⟨comparator, unequal, lies, left⟩ := p.exists_leftover_of_equation fits wanted free
              unmoved equation stranded.pivotable unit
            refine .side equation unequal (fun x meets => ?_) fun tag newTag => ?_
            · have pos := carries.pos_gap fits prepared free wanted value positive equation meets
              exact (lies x).1 pos.le
            · obtain ⟨q, rfl, required, met, leftover⟩ := left tag
              exact ⟨q, rfl, required, met,
                carries.leftover fits prepared free leftover value newTag keeps numbered stranded⟩
          · obtain rfl : sign = -1 := unit.resolve_left
              (carries.sign_ne_one fits prepared free wanted value positive shaped equation)
            refine .bound equation fun tag newTag => ?_
            obtain ⟨q, rfl, weightless, leftover⟩ := p.exists_leftover_of_bound fits wanted free unmoved
              equation stranded.pivotable new tag
            exact ⟨q, rfl, weightless,
              carries.leftover fits prepared free leftover value newTag keeps numbered stranded⟩

end Simplex

end SoftSimplex
