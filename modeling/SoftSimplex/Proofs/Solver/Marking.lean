import SoftSimplex.Proofs.Simplex.Settled
import SoftSimplex.Solver.Insert

/-!
How the columns of a constraint are made.

Every constraint gets new columns of the kinds that mark it, and the errors of an optional one cost its
weight before its row is put in (`marked_markedRow`). The weight is found first, by the priority and the
settings alone (`price`).
-/

namespace SoftSimplex

namespace Solver

open Tableau

variable {s s' : Solver Rat} {c : Constraint Rat} {weight : Option Rat}

/-! ### Steps on the inner solver -/

/-- The solver with another inner solver. -/
def withSimplex (s : Solver Rat) (simplex : Simplex Rat) : Solver Rat := { s with simplex }

theorem run_onSimplex_of_ok {α : Type} {x : Step Rat (Simplex Rat) α} {a : α}
    {simplex : Simplex Rat} (answered : x.run s.simplex = (.ok a, simplex)) :
    (onSimplex x).run s = (.ok a, s.withSimplex simplex) := by
  obtain ⟨result, state⟩ := Prod.mk.inj answered
  exact Prod.ext result (congrArg s.withSimplex state)

theorem run_onSimplex_of_error {α : Type} {x : Step Rat (Simplex Rat) α} {fault : Fault Rat}
    {simplex : Simplex Rat} (failed : x.run s.simplex = (.error fault, simplex)) :
    (onSimplex x).run s = (.error fault, s.withSimplex simplex) := by
  obtain ⟨result, state⟩ := Prod.mk.inj failed
  exact Prod.ext result (congrArg s.withSimplex state)

theorem run_penalize (wf : s.simplex.tableau.WellFormed) (column : Column) (weight : Rat) :
    (penalize column weight).run s = (.ok (), s.withSimplex
      (s.simplex.withTableau (s.simplex.tableau.addToObjective column weight))) := by
  obtain ⟨e, tolerance, -⟩ := wf.tolerant
  rw [penalize, Step.run_bind_get, tolerance, Option.isNone_some, if_neg Bool.false_ne_true]
  rfl

/-- Columns that cost a weight cost it one after another. -/
theorem run_forEach_penalize {columns : List Column} (wf : s.simplex.tableau.WellFormed)
    (stored : (s.simplex.tableau.rows.get? .objective).isSome)
    (plain : ∀ c ∈ columns, c.isObjective = false) (weight : Rat) :
    (Step.forEach columns fun column => penalize column weight).run s = (.ok (), s.withSimplex
      (s.simplex.withTableau (s.simplex.tableau.penalized weight columns))) := by
  induction columns generalizing s with
  | nil => rfl
  | cons column rest ih =>
      obtain ⟨goal, found⟩ := Option.isSome_iff_exists.1 stored
      have own := plain column List.mem_cons_self
      rw [Step.run_forEach_cons_of_ok (x := fun column => penalize column weight)
        (run_penalize wf column weight)]
      exact ih (wf.addToObjective found own weight)
        (wf.apart_addToObjective found own weight).stored
        fun c member => plain c (List.mem_cons_of_mem _ member)

/-! ### Weights -/

/-- The weight of a constraint, by the settings. -/
def price (c : Constraint Rat) : Step Rat (Solver Rat) (Option Rat) := do
  weightOf (← admittedPriority c)

theorem run_clamp (priority : Priority) (limit : Literal) (s : Solver Rat) :
    ((Step.clamp priority limit : Step Rat (Solver Rat) Priority).run s).2 = s := by
  cases priority with
  | required => rfl
  | optional strength =>
      unfold Step.clamp
      cases limit.count? with
      | none => rfl
      | some most =>
          dsimp only
          split
          · rfl
          · cases Priority.ofLiteral limit <;> rfl

theorem run_weightOf (priority : Priority) (s : Solver Rat) :
    ((weightOf priority).run s).2 = s := by
  cases priority with
  | required => rfl
  | optional strength =>
      rw [weightOf, Step.run_bind_get]
      cases s.config.weights strength <;> rfl

theorem run_admittedPriority (c : Constraint Rat) (s : Solver Rat) :
    ((admittedPriority c).run s).2 = s := by
  rw [admittedPriority, Step.run_bind_get]
  exact run_clamp _ _ s

/-- A required constraint has no weight. -/
theorem price_required (required : c.priority = .required) :
    (price c).run s = (.ok none, s) := by
  rw [price, admittedPriority, required]
  rfl

/-! ### Columns -/

/-- What adding and taking back leave alone. -/
structure Aside (s s' : Solver Rat) : Prop where
  config : s'.config = s.config
  sessions : s'.sessions = s.sessions
  needsRepair : s'.needsRepair = s.needsRepair
  nextMade : s'.simplex.nextMade = s.simplex.nextMade

theorem Aside.trans {s'' : Solver Rat} (first : s.Aside s') (second : s'.Aside s'') :
    s.Aside s'' where
  config := second.config.trans first.config
  sessions := second.sessions.trans first.sessions
  needsRepair := second.needsRepair.trans first.needsRepair
  nextMade := second.nextMade.trans first.nextMade

/-- Making columns leaves what is installed alone, too. -/
structure Same (s s' : Solver Rat) : Prop extends s.Aside s' where
  installed : s'.installed = s.installed

theorem Same.trans {s'' : Solver Rat} (first : s.Same s') (second : s'.Same s'') :
    s.Same s'' where
  toAside := first.toAside.trans second.toAside
  installed := second.installed.trans first.installed

/-- A column was made for a solver. -/
structure Made (s : Solver Rat) (column : Column) (s' : Solver Rat) : Prop
    extends s.simplex.Made column s'.simplex where
  same : s.Same s'

theorem run_freshError (label : String) (s : Solver Rat) : ∃ column s',
    (freshError label).run s = (.ok column, s') ∧ s.Made column s' ∧ column.isSlack = true :=
  ⟨_, _, rfl, ⟨⟨⟨rfl, rfl, rfl, Nat.le_succ _⟩, rfl, rfl, ⟨_, rfl, le_rfl, Nat.lt_succ_self _⟩⟩,
    ⟨⟨rfl, rfl, rfl, rfl⟩, rfl⟩⟩, rfl⟩

theorem same_withSimplex (s : Solver Rat) {simplex : Simplex Rat}
    (keeps : s.simplex.Keeps simplex) : s.Same (s.withSimplex simplex) :=
  ⟨⟨rfl, rfl, rfl, keeps.nextMade⟩, rfl⟩

theorem run_freshSlack (s : Solver Rat) : ∃ column s',
    (onSimplex Simplex.freshSlack).run s = (.ok column, s') ∧ s.Made column s' ∧
      column.isSlack = true := by
  obtain ⟨column, inner, ran, made, isSlack⟩ := Simplex.run_freshSlack s.simplex
  exact ⟨column, _, run_onSimplex_of_ok ran, ⟨made, s.same_withSimplex made.keeps⟩, isSlack⟩

theorem run_freshDummy (s : Solver Rat) : ∃ column s',
    (onSimplex Simplex.freshDummy).run s = (.ok column, s') ∧ s.Made column s' ∧
      column.isDummy = true := by
  obtain ⟨column, inner, ran, made, isDummy⟩ := Simplex.run_freshDummy s.simplex
  exact ⟨column, _, run_onSimplex_of_ok ran, ⟨made, s.same_withSimplex made.keeps⟩, isDummy⟩

theorem run_nextError (s : Solver Rat) : ∃ n s', nextError.run s = (.ok n, s') ∧ s.Same s' ∧
    s'.simplex = s.simplex :=
  ⟨_, _, rfl, ⟨⟨rfl, rfl, rfl, rfl⟩, rfl⟩, rfl⟩

/-- Columns that were made one after the other are different. -/
theorem Made.apart {s'' : Solver Rat} {first second : Column} (made : s.Made first s')
    (later : s'.Made second s'') : second ≠ first := by
  rintro rfl
  exact later.numbered.not_below made.numbered.below

/-- The columns of a constraint were made. -/
structure Marked (s : Solver Rat) (c : Constraint Rat) (weight : Option Rat) (m : Markers Rat)
    (s' : Solver Rat) : Prop where
  fits : m.Fits c.priority c.comparator
  weight : m.weight = weight
  prepared : s.simplex.Prepared ⟨⟨c, m⟩, 0⟩ s'.simplex
  same : s.Same s'
  /-- Only equations have dummies for their main columns. -/
  binding : m.main.isDummy = true → c.comparator = .eq

/-- The row of a constraint that was posed anew. -/
def freshRow (s : Solver Rat) (c : Constraint Rat) (m : Markers Rat) : Row Rat :=
  s.simplex.posedRow ⟨⟨c, m⟩, 0⟩

theorem numbered_mono {column : Column} {a b a' b' : Nat} (numbered : column.Numbered a b)
    (first : a' ≤ a) (last : b ≤ b') : column.Numbered a' b' := by
  obtain ⟨symbol, rfl, lower, upper⟩ := numbered
  exact ⟨symbol, rfl, first.trans lower, Nat.lt_of_lt_of_le upper last⟩

/-! ### The row of a constraint -/

theorem admitted_of_priced (priced : (price c).run s = (.ok weight, s)) : ∃ priority,
    (admittedPriority c).run s = (.ok priority, s) ∧ (weightOf priority).run s = (.ok weight, s) := by
  obtain ⟨priority, s₁, admitted, weighed⟩ := Step.run_bind_eq_ok priced
  obtain rfl : s₁ = s := by
    have state := run_admittedPriority c s
    rwa [admitted] at state
  exact ⟨priority, admitted, weighed⟩

section

variable (wf : s.simplex.tableau.WellFormed)
include wf

theorem run_residualRow (c : Constraint Rat) : (onSimplex (Simplex.residualRow c)).run s =
    (.ok (s.simplex.tableau.reduced c), s) :=
  run_onSimplex_of_ok (Simplex.run_residualRow wf c)

/-- A required equation is marked by a dummy. -/
theorem marked_equation (priced : (price c).run s = (.ok none, s)) (equation : c.comparator = .eq) :
    ∃ m s', (markedRow c).run s = (.ok (s.freshRow c m, m), s') ∧ s.Marked c none m s' := by
  obtain ⟨priority, admitted, weighed⟩ := admitted_of_priced priced
  obtain ⟨dummy, s', ran, made, isDummy⟩ := run_freshDummy s
  rw [markedRow, Step.run_bind_of_ok (run_residualRow wf c),
    Step.run_bind_of_ok admitted, Step.run_bind_of_ok weighed, equation]
  dsimp only
  rw [Step.run_bind_assoc, Step.run_bind_of_ok ran]
  refine ⟨⟨dummy, some dummy, [], none⟩, s', ?_, equation ▸ .equation isDummy, rfl,
    ⟨made.keeps, made.flag, fun column own => ?_, [], .refl _, made.tableau⟩, made.same,
    fun _ => equation⟩
  · rw [freshRow, Simplex.posedRow, Markers.mark, Markers.terms_same]
    rfl
  · rw [Posed.columns, Markers.columns_same, List.mem_singleton] at own
    exact own ▸ made.numbered

/-- A required inequality is marked by a slack. -/
theorem marked_bound (priced : (price c).run s = (.ok none, s)) (unequal : c.comparator ≠ .eq) :
    ∃ m s', (markedRow c).run s = (.ok (s.freshRow c m, m), s') ∧ s.Marked c none m s' := by
  obtain ⟨priority, admitted, weighed⟩ := admitted_of_priced priced
  obtain ⟨slack, s', ran, made, isSlack⟩ := run_freshSlack s
  have notDummy := Column.not_dummy_of_pivotable (Column.pivotable_of_slack isSlack)
  rw [markedRow, Step.run_bind_of_ok (run_residualRow wf c),
    Step.run_bind_of_ok admitted, Step.run_bind_of_ok weighed]
  refine ⟨⟨slack, none, [], none⟩, s', ?_, .bound unequal isSlack, rfl,
    ⟨made.keeps, made.flag, fun column own => ?_, [], .refl _, made.tableau⟩, made.same,
    fun dummy => absurd (notDummy.symm.trans dummy) Bool.false_ne_true⟩
  · rw [freshRow, Simplex.posedRow, Markers.mark, Markers.terms_single]
    cases comparator : c.comparator with
    | eq => exact absurd comparator unequal
    | le | ge =>
        dsimp only
        rw [Step.run_bind_assoc, Step.run_bind_of_ok ran]
        rfl
  · rw [Posed.columns, Markers.columns_single, List.mem_singleton] at own
    exact own ▸ made.numbered

variable {w : Rat}

/-- An optional equation has two errors, which cost its weight. -/
theorem marked_wishedEquation (stored : (s.simplex.tableau.rows.get? .objective).isSome)
    (priced : (price c).run s = (.ok (some w), s)) (equation : c.comparator = .eq) :
    ∃ m s', (markedRow c).run s = (.ok (s.freshRow c m, m), s') ∧ s.Marked c (some w) m s' := by
  obtain ⟨priority, admitted, weighed⟩ := admitted_of_priced priced
  obtain ⟨n, s₂, counted, same₂, simplex₂⟩ := run_nextError s
  obtain ⟨plus, s₃, ran₃, made₃, plusIsSlack⟩ := run_freshError s!"ep{n}" s₂
  obtain ⟨minus, s₄, ran₄, made₄, minusIsSlack⟩ := run_freshError s!"em{n}" s₃
  have apart := made₃.apart made₄
  have tableau : s₄.simplex.tableau = s.simplex.tableau := by
    rw [made₄.tableau, made₃.tableau, simplex₂]
  have keeps := made₃.keeps.trans made₄.keeps
  have flag := made₄.flag.trans made₃.flag
  rw [simplex₂] at keeps flag
  obtain ⟨goal, found⟩ := Option.isSome_iff_exists.1 stored
  have second := wf.addToObjective found
    (Column.not_objective_of_pivotable (Column.pivotable_of_slack minusIsSlack)) w
  rw [markedRow, Step.run_bind_of_ok (run_residualRow wf c),
    Step.run_bind_of_ok admitted, Step.run_bind_of_ok weighed, equation]
  dsimp only
  rw [← tableau] at wf second
  rw [Step.run_bind_assoc, Step.run_bind_of_ok counted, Step.run_bind_assoc,
    Step.run_bind_of_ok ran₃, Step.run_bind_assoc, Step.run_bind_of_ok ran₄, Step.run_bind_assoc,
    Step.run_bind_of_ok (run_penalize wf minus w), Step.run_bind_assoc,
    Step.run_bind_of_ok (run_penalize second plus w)]
  refine ⟨⟨plus, some minus, [plus, minus], some w⟩,
    s₄.withSimplex (s₄.simplex.withTableau (s₄.simplex.tableau.penalized w [minus, plus])), ?_,
    equation ▸ .wishedEquation plusIsSlack minusIsSlack apart, rfl,
    ⟨⟨keeps.goal, keeps.registered, keeps.nextMade, keeps.serial⟩, flag, fun column own => ?_,
      [minus, plus], .swap _ _ _, ?_⟩,
    ((same₂.trans made₃.same).trans made₄.same).trans
      (same_withSimplex _ (Simplex.keeps_withTableau _ _)), fun _ => equation⟩
  · rw [freshRow, Simplex.posedRow, Markers.mark, Markers.terms_pair apart
      (Column.not_dummy_of_pivotable (Column.pivotable_of_slack plusIsSlack))]
    rfl
  · have first := made₃.numbered
    rw [Posed.columns, Markers.columns_pair apart, List.mem_pair] at own
    rcases own with rfl | rfl
    · exact numbered_mono (simplex₂ ▸ first) le_rfl made₄.keeps.serial
    · exact numbered_mono made₄.numbered (simplex₂ ▸ made₃.keeps.serial) le_rfl
  · rw [← tableau]
    rfl

/-- An optional inequality has a slack, and an error which costs its weight. -/
theorem marked_wishedBound (priced : (price c).run s = (.ok (some w), s))
    (unequal : c.comparator ≠ .eq) :
    ∃ m s', (markedRow c).run s = (.ok (s.freshRow c m, m), s') ∧ s.Marked c (some w) m s' := by
  obtain ⟨priority, admitted, weighed⟩ := admitted_of_priced priced
  obtain ⟨slack, s₂, ran₂, made₂, isSlack⟩ := run_freshSlack s
  have notDummy := Column.not_dummy_of_pivotable (Column.pivotable_of_slack isSlack)
  obtain ⟨n, s₃, counted, same₃, simplex₃⟩ := run_nextError s₂
  obtain ⟨error, s₄, ran₄, made₄, errorIsSlack⟩ := run_freshError s!"e{n}" s₃
  have tableau : s₄.simplex.tableau = s.simplex.tableau := by
    rw [made₄.tableau, simplex₃, made₂.tableau]
  have later := made₄.keeps
  have own₄ := made₄.numbered
  have flag := made₄.flag
  rw [simplex₃] at later own₄ flag
  have keeps := made₂.keeps.trans later
  replace flag := flag.trans made₂.flag
  have apart : error ≠ slack := by
    rintro rfl
    exact own₄.not_below made₂.numbered.below
  rw [markedRow, Step.run_bind_of_ok (run_residualRow wf c),
    Step.run_bind_of_ok admitted, Step.run_bind_of_ok weighed]
  rw [← tableau] at wf
  refine ⟨⟨slack, some error, [error], some w⟩,
    s₄.withSimplex (s₄.simplex.withTableau (s₄.simplex.tableau.penalized w [error])), ?_,
    .wishedBound unequal isSlack (Column.pivotable_of_slack errorIsSlack) apart, rfl,
    ⟨⟨keeps.goal, keeps.registered, keeps.nextMade, keeps.serial⟩, flag, fun column own => ?_,
      [error], .refl _, ?_⟩,
    ((made₂.same.trans same₃).trans made₄.same).trans
      (same_withSimplex _ (Simplex.keeps_withTableau _ _)),
    fun dummy => absurd (notDummy.symm.trans dummy) Bool.false_ne_true⟩
  · rw [freshRow, Simplex.posedRow, Markers.mark, Markers.terms_pair apart notDummy]
    cases comparator : c.comparator with
    | eq => exact absurd comparator unequal
    | le | ge =>
        dsimp only
        rw [Step.run_bind_assoc, Step.run_bind_of_ok ran₂, Step.run_bind_assoc,
          Step.run_bind_of_ok counted, Step.run_bind_assoc, Step.run_bind_of_ok ran₄,
          Step.run_bind_assoc, Step.run_bind_of_ok (run_penalize wf error w)]
        rfl
  · rw [Posed.columns, Markers.columns_pair apart, List.mem_pair] at own
    rcases own with rfl | rfl
    · exact numbered_mono made₂.numbered le_rfl later.serial
    · exact numbered_mono own₄ made₂.keeps.serial le_rfl
  · rw [← tableau]
    rfl

/-- Whatever a constraint is, columns that mark it are made. -/
theorem marked_markedRow (stored : (s.simplex.tableau.rows.get? .objective).isSome)
    (priced : (price c).run s = (.ok weight, s)) :
    ∃ m s', (markedRow c).run s = (.ok (s.freshRow c m, m), s') ∧ s.Marked c weight m s' := by
  by_cases equation : c.comparator = .eq
  · cases weight with
    | none => exact marked_equation wf priced equation
    | some w => exact marked_wishedEquation wf stored priced equation
  · cases weight with
    | none => exact marked_bound wf priced equation
    | some w => exact marked_wishedBound wf priced equation

end

end Solver

end SoftSimplex
