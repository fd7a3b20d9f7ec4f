import Mathlib.Algebra.Order.Field.Basic
import SoftSimplex.Proofs.Simplex.Carrying
import SoftSimplex.Proofs.Simplex.Exit

/-!
Taking constraints out of the tableau.

The marker of a constraint is made basic and its row is deleted (`Exposed`), which leaves the rows of the
other constraints (`Represents.removed`). A steady tableau stays steady, and a shaped one shaped, if that
loosens no dummy (`Exposed.steady`, `Exposed.shaped`).
-/

namespace SoftSimplex

/-- No unknown of the caller is restricted. -/
theorem onVariables_update {c : Column} (restricted : c.isRestricted = true) (σ : Column → Rat)
    (x : Rat) : onVariables (Function.update σ c x) = onVariables σ := by
  funext v
  refine Function.update_of_ne ?_ _ _
  rintro rfl
  cases restricted

namespace Posed

variable {p : Posed} {σ : Column → Rat} {x : Rat}

/-- Moving the main column moves the row of the constraint. -/
theorem exists_offset_update (fits : p.Fits) : ∃ k : Rat, k ≠ 0 ∧ ∀ σ x,
    p.offset (Function.update σ p.markers.main x) = p.offset σ + k * (x - σ p.markers.main) := by
  have nodup := Markers.Fits.nodup fits
  rw [← Markers.map_terms_eq_columns] at nodup
  obtain ⟨k, rest, shape, nonzero⟩ : ∃ k rest, p.markers.terms = (p.markers.main, k) :: rest ∧
      k ≠ 0 := by
    unfold Markers.terms
    split
    · exact ⟨1, [], rfl, one_ne_zero⟩
    · exact ⟨-1, _, rfl, neg_ne_zero.2 one_ne_zero⟩
  rw [shape, List.map_cons, List.nodup_cons] at nodup
  refine ⟨k, nonzero, fun σ x => ?_⟩
  have others : (rest.map fun term => term.2 * Function.update σ p.markers.main x term.1) =
      rest.map fun term => term.2 * σ term.1 := by
    refine List.map_congr_left fun term member => ?_
    rw [Function.update_of_ne]
    exact fun same => nodup.1 (List.mem_map.2 ⟨term, member, same⟩)
  rw [offset, offset, shape, List.map_cons, List.map_cons, others, List.sum_cons, List.sum_cons,
    Function.update_self]
  ring

theorem onVariables_update_own {c : Column} (fits : p.Fits) (own : c ∈ p.columns)
    (σ : Column → Rat) (x : Rat) : onVariables (Function.update σ c x) = onVariables σ :=
  onVariables_update (Markers.Fits.restricted fits own) σ x

theorem exists_equation (fits : p.Fits) (σ : Column → Rat) :
    ∃ x, p.Equation (Function.update σ p.markers.main x) := by
  obtain ⟨k, nonzero, moved⟩ := exists_offset_update fits
  refine ⟨σ p.markers.main - (p.gap (onVariables σ) + p.offset σ) / k, ?_⟩
  rw [Equation, onVariables_update_own fits p.markers.main_mem_columns, moved]
  field_simp
  ring

/-- A constraint determines its main column. -/
theorem Equation.eq_of_update (fits : p.Fits) (first : p.Equation σ)
    (second : p.Equation (Function.update σ p.markers.main x)) : x = σ p.markers.main := by
  obtain ⟨k, nonzero, moved⟩ := exists_offset_update fits
  rw [Equation, onVariables_update_own fits p.markers.main_mem_columns, moved] at second
  rw [Equation] at first
  have zero : k * (x - σ p.markers.main) = 0 := by linarith
  exact sub_eq_zero.1 ((mul_eq_zero.1 zero).resolve_left nonzero)

end Posed

namespace Tableau

variable {t t' : Tableau Rat} {posed : List Posed} {goal : (Column → Rat) → Rat} {p : Posed}
  {marker exit key c : Column} {row other : Row Rat} {σ : Column → Rat}

/-- A marker was made basic, or struck out if no row but those of objectives mentions it. -/
inductive Exposed (t : Tableau Rat) (marker : Column) : Tableau Rat → Prop where
  | basic (inside : (t.rows.get? marker).isSome) : Exposed t marker t
  | struck (outside : t.rows.get? marker = none)
      (unmentioned : ∀ key, key.isObjective = false → ¬t.Mentions key marker) :
      Exposed t marker (t.removeColumn marker)
  | pivoted {exit : Column} {row : Row Rat}
      (chosen : Simplex.removalExit? t marker = .ok (some exit))
      (pivotal : t.Pivotal marker exit row) (leaves : t.Leaves marker exit row) :
      Exposed t marker (t.pivoted marker exit row)

theorem run_expose (wf : t.WellFormed) (marker : Column) :
    ∃ t', (Simplex.expose marker).run t = (.ok (), t') ∧ t.Exposed marker t' := by
  rw [Simplex.expose, Step.run_bind_get]
  cases inside : t.isBasic marker with
  | true =>
      rw [if_pos rfl]
      exact ⟨t, rfl, .basic inside⟩
  | false =>
      rw [if_neg Bool.false_ne_true]
      rcases wf.removalExit?_cases marker with
        ⟨chosen, unmentioned⟩ | ⟨exit, row, chosen, pivotal, leaves⟩
      · rw [chosen, Step.run_bind_ofExcept_ok]
        exact ⟨_, rfl, .struck (by simpa [isBasic, Sorted.Map.contains] using inside) unmentioned⟩
      · rw [chosen, Step.run_bind_ofExcept_ok]
        exact ⟨_, wf.run_pivot pivotal, .pivoted chosen pivotal leaves⟩

/-! ### The remaining constraints -/

section

variable (represents : t.Represents posed goal) (family : Family posed) (member : p ∈ posed)
include represents family member

/-- The main column of a constraint is basic or in a row that is no objective. -/
theorem Represents.mentioned (outside : t.rows.get? p.markers.main = none) :
    ∃ key, key.isObjective = false ∧ t.Mentions key p.markers.main := by
  by_contra unmentioned
  push Not at unmentioned
  have fits := family.fits p member
  -- Without such a row the column could move alone.
  have alone : ∀ c, c.isObjective = false →
      t.ray p.markers.main 1 c = Function.update t.basicSolution p.markers.main 1 c := by
    intro c plain
    by_cases same : c = p.markers.main
    · rw [same, ray_self outside, Function.update_self]
    · rw [Function.update_of_ne same]
      cases basic : t.rows.get? c with
      | none => rw [ray_of_not_basic basic same, basicSolution_of_not_basic basic]
      | some row =>
          have zero : row.coefficient p.markers.main = 0 :=
            by_contra fun nonzero => unmentioned c plain (mentions_of_coefficient basic nonzero)
          rw [ray_of_basic basic, basicSolution_of_basic basic, zero, zero_mul, add_zero]
  have moved := ((represents.holds _).1 (represents.holds_ray p.markers.main 1)).1 p member
  have unknowns : onVariables (t.ray p.markers.main 1) =
      onVariables (Function.update t.basicSolution p.markers.main 1) :=
    funext fun v => alone (.external v) rfl
  have second : p.Equation (Function.update t.basicSolution p.markers.main 1) :=
    (Posed.equation_congr unknowns fun c own => alone c
      (Column.not_objective_of_restricted (Markers.Fits.restricted fits own))).1 moved
  have one_eq := (represents.equation member).eq_of_update fits second
  rw [basicSolution_of_not_basic outside] at one_eq
  exact one_ne_zero one_eq

omit represents in
/-- Other constraints do not look at the columns of a constraint. -/
theorem equation_congr_other {q : Posed} (other : q ∈ withoutTag posed p.constraint.tag)
    {σ τ : Column → Rat} (same : ∀ d, d ∉ p.columns → σ d = τ d) : q.Equation σ ↔ q.Equation τ := by
  obtain ⟨inside, different⟩ := mem_withoutTag.1 other
  refine Posed.equation_congr (funext fun v => same _ fun own => ?_) fun d inQ => same d fun own => ?_
  · have restricted := Markers.Fits.restricted (family.fits p member) own
    cases restricted
  · exact different (congrArg (·.constraint.tag) (family.apart q inside p member d inQ own))

omit represents in
theorem equation_update_other {q : Posed} (other : q ∈ withoutTag posed p.constraint.tag)
    (own : c ∈ p.columns) (σ : Column → Rat) (x : Rat) :
    q.Equation (Function.update σ c x) ↔ q.Equation σ :=
  equation_congr_other family member other fun d away => Function.update_of_ne (by
    rintro rfl
    exact away own) _ _

/-- Deleting the row of its marker takes a constraint back. -/
theorem Represents.removeRow_marker (basic : (t.rows.get? p.markers.main).isSome)
    (independent : ∀ σ x, goal (Function.update σ p.markers.main x) = goal σ) :
    (t.removeRow p.markers.main).Represents (withoutTag posed p.constraint.tag) goal := by
  have fits := family.fits p member
  have own := p.markers.main_mem_columns
  have notObjective (c : Column) (objective : c.isObjective = true) : p.markers.main ≠ c := by
    rintro rfl
    rw [Column.not_objective_of_restricted (Markers.Fits.restricted fits own)] at objective
    cases objective
  obtain ⟨row, found⟩ := Option.isSome_iff_exists.1 basic
  refine
    { toExact := represents.toExact.removeRow _
      holds := fun σ => ?_
      blind := represents.blind
      stored := by rw [get?_removeRow, if_neg (notObjective _ rfl)]; exact represents.stored
      idle := by rw [get?_removeRow, if_neg (notObjective _ rfl)]; exact represents.idle }
  have others (x : Rat) : (∀ q ∈ withoutTag posed p.constraint.tag,
      q.Equation (Function.update σ p.markers.main x)) ↔
        ∀ q ∈ withoutTag posed p.constraint.tag, q.Equation σ :=
    forall₂_congr fun q other => equation_update_other family member other own σ x
  have objective (x : Rat) : Function.update σ p.markers.main x .objective = σ .objective :=
    Function.update_of_ne (Ne.symm (notObjective _ rfl)) _ _
  rw [holds_removeRow represents.toWellFormed found]
  constructor
  · rintro ⟨x, holds⟩
    obtain ⟨equations, goal_eq⟩ := (represents.holds _).1 holds
    rw [independent, objective] at goal_eq
    exact ⟨(others x).1 ((family.forall_mem_iff member).1 equations).2, goal_eq⟩
  · rintro ⟨equations, goal_eq⟩
    obtain ⟨x, equation⟩ := Posed.exists_equation fits σ
    refine ⟨x, (represents.holds _).2
      ⟨(family.forall_mem_iff member).2 ⟨equation, (others x).2 equations⟩, ?_⟩⟩
    rw [independent, objective, goal_eq]

end

/-- An exposed marker of a constraint is basic. -/
theorem Exposed.represents (exposed : t.Exposed marker t') (represents : t.Represents posed goal)
    (family : Family posed) (member : p ∈ posed) (main : p.markers.main = marker) :
    t'.Represents posed goal ∧ (t'.rows.get? marker).isSome ∧ t'.scope = t.scope ∧
      (t.Recorded → t'.Recorded) := by
  subst main
  cases exposed with
  | basic inside => exact ⟨represents, inside, rfl, id⟩
  | struck outside unmentioned =>
      obtain ⟨key, plain, mentioned⟩ := represents.mentioned family member outside
      exact absurd mentioned (unmentioned key plain)
  | @pivoted exit row _ pivotal leaves =>
      have exact := represents.toExact
      have fits := family.fits p member
      have entryNe (c : Column) (objective : c.isObjective = true) : c ≠ p.markers.main := by
        rintro rfl
        rw [Column.not_objective_of_restricted
          (Markers.Fits.restricted fits p.markers.main_mem_columns)] at objective
        cases objective
      have exitNe (c : Column) (objective : c.isObjective = true) : c ≠ exit := by
        rintro rfl
        rw [pivotal.plain] at objective
        cases objective
      have kept (c : Column) (objective : c.isObjective = true) :=
        exact.get?_pivoted_of_ne row (entryNe c objective) (exitNe c objective)
      refine ⟨⟨exact.pivoted pivotal, fun σ => (exact.holds_pivoted pivotal).trans
        (represents.holds σ), represents.blind, ?_, ?_⟩, ?_, exact.scope_pivoted pivotal,
        exact.recorded_pivoted _ _ _⟩
      · rw [kept _ rfl, Option.isSome_map]
        exact represents.stored
      · rw [kept _ rfl, represents.idle, Option.map_none]
      · exact (exact.basic_pivoted _ exit row _).2 (.inl rfl)

/-! ### Shape -/

/-- A pivot for a marker keeps what may not be negative from becoming so. -/
theorem Leaves.nonneg (leaves : t.Leaves marker exit row) (exact : t.Exact)
    (pivotal : t.Pivotal marker exit row)
    (constants : ∀ key other, t.rows.get? key = some other → key.isRestricted = true →
      0 ≤ other.constant) (restricted : key.isRestricted = true) (different : key ≠ marker) :
    0 ≤ (t.pivoted marker exit row).basicSolution key := by
  rw [exact.basicSolution_pivoted pivotal]
  cases found : t.rows.get? key with
  | none => rw [ray_of_not_basic found different]
  | some other =>
      rw [ray_of_basic found]
      have own := constants key other found restricted
      cases leaves with
      | falling restrictedExit negative least =>
          have growth : 0 ≤ -row.constant / row.coefficient marker :=
            div_nonneg_of_nonpos (neg_nonpos.2 (constants exit row pivotal.found restrictedExit))
              negative.le
          rcases le_or_gt 0 (other.coefficient marker) with rises | falls
          · exact add_nonneg own (mul_nonneg rises growth)
          · have bound := least key other found restricted falls
            rw [le_div_iff_of_neg falls] at bound
            linarith
      | rising restrictedExit nonneg least =>
          have positive : 0 < row.coefficient marker :=
            lt_of_le_of_ne (nonneg exit row pivotal.found restrictedExit)
              (Ne.symm (exact.entry_coefficient pivotal))
          rcases (nonneg key other found restricted).eq_or_lt with zero | rises
          · rw [← zero, zero_mul, add_zero]
            exact own
          · have bound := least key other found restricted rises.ne'
            rw [le_div_iff₀ rises] at bound
            rw [neg_div]
            linarith
      | free unmentioned =>
          have zero : other.coefficient marker = 0 :=
            by_contra fun nonzero => unmentioned key restricted
              (mentions_of_coefficient found nonzero)
          rw [zero, zero_mul, add_zero]
          exact own

theorem Shaped.constant_nonneg (shaped : t.Shaped) (found : t.rows.get? key = some row)
    (restricted : key.isRestricted = true) : 0 ≤ row.constant := by
  rcases Column.pivotable_or_dummy restricted with pivotable | dummy
  · exact shaped.feasible.constant found pivotable
  · exact (shaped.anchored.constant key row dummy found).ge

/-- A marker is exposed through the row of a column that is no dummy, while the row of a dummy mentions
the marker. -/
def Loosens (t : Tableau Rat) (marker : Column) : Prop :=
  ∃ exit, Simplex.removalExit? t marker = .ok (some exit) ∧ exit.isDummy = false ∧
    ∃ key, key.isDummy = true ∧ t.Mentions key marker

/-- A marker that is no dummy loosens nothing. -/
theorem Insulated.not_loosens (insulated : t.Insulated) (notDummy : marker.isDummy = false) :
    ¬t.Loosens marker := by
  rintro ⟨-, -, -, key, dummy, mentioned⟩
  rw [insulated key marker dummy mentioned] at notDummy
  cases notDummy

/-- Where a dummy mentions the marker, the row of another dummy leaves, and nothing moves. -/
theorem Anchored.ray_eq (anchored : t.Anchored) (tight : (∃ key, key.isDummy = true ∧
    t.Mentions key marker) → exit.isDummy = true) (found : t.rows.get? exit = some row)
    (dummy : key.isDummy = true) (different : key ≠ marker) :
    t.ray marker (-row.constant / row.coefficient marker) key = 0 := by
  cases own : t.rows.get? key with
  | none => exact ray_of_not_basic own different _
  | some other =>
      rw [ray_of_basic own, anchored.constant key other dummy own, zero_add]
      by_cases zero : other.coefficient marker = 0
      · rw [zero, zero_mul]
      · have exitDummy := tight ⟨key, dummy, mentions_of_coefficient own zero⟩
        rw [anchored.constant exit row exitDummy found, neg_zero, zero_div, mul_zero]

theorem get?_of_removeRow (found : (t.removeRow marker).rows.get? key = some row) :
    key ≠ marker ∧ t.rows.get? key = some row := by
  rw [get?_removeRow] at found
  split at found
  · cases found
  · next different => exact ⟨Ne.symm different, found⟩

/-- Where the row of an unknown leaves, no restricted row changes. -/
theorem Exact.get?_pivoted_of_free (exact : t.Exact)
    (free : ∀ key, key.isRestricted = true → ¬t.Mentions key marker)
    (loose : ¬exit.isRestricted = true) (restricted : key.isRestricted = true)
    (found : ((t.pivoted marker exit row).removeRow marker).rows.get? key = some other) :
    t.rows.get? key = some other := by
  obtain ⟨different, found'⟩ := get?_of_removeRow found
  have exitNe : key ≠ exit := by
    rintro rfl
    exact loose restricted
  rw [exact.get?_pivoted_of_ne row different exitNe] at found'
  obtain ⟨before, stored, rfl⟩ := Option.map_eq_some_iff.1 found'
  have absent : ¬before.terms.contains marker = true := fun present =>
    free key restricted (mentions_iff.2 ⟨before, stored, present⟩)
  rw [Row.substituted, if_neg absent]
  exact stored

section

variable (exposed : t.Exposed marker t') (exact : t.Exact) (inside : (t'.rows.get? marker).isSome)
include exposed exact inside

/-- Taking out a marker makes no restricted row negative. -/
theorem Exposed.upright (upright : t.Upright) : (t'.removeRow marker).Upright := by
  refine upright_iff.2 fun c restricted => ?_
  by_cases same : c = marker
  · rw [same, basicSolution_removeRow_self]
  rw [basicSolution_removeRow same]
  cases exposed with
  | basic _ => exact upright_iff.1 upright c restricted
  | struck outside unmentioned =>
      rw [get?_removeColumn exact.toWellFormed, outside] at inside
      cases inside
  | pivoted chosen pivotal leaves => exact leaves.nonneg exact pivotal upright restricted same

variable (tight : ¬t.Loosens marker)
include tight

/-- Taking out a marker that loosens nothing leaves a steady tableau. -/
theorem Exposed.steady (steady : t.Steady) : (t'.removeRow marker).Steady := by
  have upright := exposed.upright exact inside steady.upright
  cases exposed with
  | basic _ => exact steady.of_rows fun key row _ found => (get?_of_removeRow found).2
  | struck outside unmentioned =>
      rw [get?_removeColumn exact.toWellFormed, outside] at inside
      cases inside
  | @pivoted exit row chosen pivotal leaves =>
      have anchors : (∃ key, key.isDummy = true ∧ t.Mentions key marker) → exit.isDummy = true :=
        fun mentioned => by
          by_contra loose
          exact tight ⟨exit, chosen, Bool.not_eq_true _ ▸ loose, mentioned⟩
      by_cases restrictedExit : exit.isRestricted = true
      · have sheltered := steady.sheltered.pivoted exact.toWellFormed pivotal restrictedExit
        refine ⟨fun key c restricted mentioned => ?_, fun key c dummy mentioned => ?_, upright⟩
        · exact sheltered key c restricted (mentions_removeRow.1 mentioned).2
        · obtain ⟨different, inPivoted⟩ := mentions_removeRow.1 mentioned
          rcases exact.mentions_of_mentions_pivoted pivotal inPivoted with
            ⟨same, -⟩ | ⟨-, -, kept | ⟨touched, source⟩⟩
          · exact absurd same different
          · exact steady.insulated key c dummy kept
          · have exitDummy := anchors ⟨key, dummy, touched⟩
            rcases source with rfl | inExit
            · exact exitDummy
            · exact steady.insulated exit c exitDummy inExit
      · have free : ∀ key, key.isRestricted = true → ¬t.Mentions key marker := by
          cases leaves with
          | falling restricted _ _ => exact absurd restricted restrictedExit
          | rising restricted _ _ => exact absurd restricted restrictedExit
          | free unmentioned => exact unmentioned
        exact steady.of_rows fun key row' restricted found =>
          exact.get?_pivoted_of_free free restrictedExit restricted found

/-- Taking out a marker that loosens nothing leaves a shaped tableau. -/
theorem Exposed.shaped (shaped : t.Shaped) : (t'.removeRow marker).Shaped := by
  refine (exposed.steady exact inside tight shaped.steady).shaped fun c dummy => ?_
  by_cases same : c = marker
  · rw [same, basicSolution_removeRow_self]
  rw [basicSolution_removeRow same]
  cases exposed with
  | basic _ => exact (shaped.admissible exact.toWellFormed).zero c dummy
  | struck outside unmentioned =>
      rw [get?_removeColumn exact.toWellFormed, outside] at inside
      cases inside
  | @pivoted exit row chosen pivotal leaves =>
      rw [exact.basicSolution_pivoted pivotal]
      refine shaped.anchored.ray_eq (fun mentioned => ?_) pivotal.found dummy same
      by_contra loose
      exact tight ⟨exit, chosen, Bool.not_eq_true _ ▸ loose, mentioned⟩

end

/-! ### Columns that are left over -/

section

variable (represents : t.Represents posed goal) (restricted : c.isRestricted = true)
  (others : ∀ q ∈ posed, c ∉ q.columns)
  (independent : ∀ σ x, goal (Function.update σ c x) = goal σ)
include represents restricted others independent

/-- A column that neither a constraint nor the objective looks at takes any value. -/
theorem Represents.holds_update_iff (σ : Column → Rat) (x : Rat) :
    t.Holds (Function.update σ c x) ↔ t.Holds σ := by
  have objectiveNe : Column.objective ≠ c := by
    rintro rfl
    cases restricted
  rw [represents.holds, represents.holds, independent, Function.update_of_ne objectiveNe]
  refine and_congr_left fun _ => forall₂_congr fun q member => ?_
  refine Posed.equation_congr (onVariables_update restricted σ x) fun d own =>
    Function.update_of_ne ?_ _ _
  rintro rfl
  exact others q member own

/-- Such a column can be struck out. -/
theorem Represents.struck :
    ((t.removeRow c).removeColumn c).Represents posed goal ∧
      (∀ key, ((t.removeRow c).removeColumn c).rows.get? key = t.rows.get? key) ∧
      (∀ d ∈ ((t.removeRow c).removeColumn c).scope, d ≠ c ∧ d ∈ t.scope) ∧
      (t.Recorded → ((t.removeRow c).removeColumn c).Recorded) := by
  have free := represents.holds_update_iff restricted others independent
  have outside := represents.not_basic_of_free fun σ x => (free σ x).2
  have unmentioned := represents.not_mentioned_of_free fun σ x => (free σ x).2
  have exact₁ := represents.toExact.removeRow c
  have outside₁ : (t.removeRow c).rows.get? c = none := by rw [get?_removeRow, if_pos rfl]
  have rows : ∀ key, ((t.removeRow c).removeColumn c).rows.get? key = t.rows.get? key := by
    intro key
    rw [get?_removeColumn exact₁.toWellFormed, get?_removeRow]
    split
    · next same => rw [← same, outside, Option.map_none]
    · cases found : t.rows.get? key with
      | none => rfl
      | some row =>
          rw [Option.map_some, Row.without_of_absent]
          by_contra present
          exact unmentioned key (mentions_iff.2 ⟨row, found, Option.isSome_iff_ne_none.2 present⟩)
  refine ⟨⟨exact₁.removeColumn outside₁, fun σ => ?_, represents.blind, ?_, ?_⟩, rows,
    fun d known => ?_, fun recorded key member => ?_⟩
  · rw [exact₁.holds_removeColumn outside₁, holds_removeRow_of_absent outside, free,
      represents.holds]
  · rw [rows]
    exact represents.stored
  · rw [rows]
    exact represents.idle
  · rwa [exact₁.mem_scope_removeColumn outside₁, mem_scope_removeRow_of_absent outside] at known
  · rw [infeasible_removeColumn, infeasible_removeRow, Sorted.Set.mem_erase] at member
    exact recorded key member.2

end

end Tableau

namespace Simplex

open Tableau

variable {s s' : Simplex Rat} {posed : List Posed} {goal : (Column → Rat) → Rat} {p : Posed}

/-- What taking a constraint back leaves. -/
structure Removed (s : Simplex Rat) (p : Posed) (tag : Tag) (s' : Simplex Rat) : Prop where
  goal : s'.goal = s.goal
  registered : s'.registered = s.registered.erase tag
  nextMade : s'.nextMade = s.nextMade
  serial : s'.nextSerial = s.nextSerial
  needed : s'.needsOptimize = true
  tableau : ∃ t', s.tableau.Exposed p.markers.main t' ∧ s'.tableau = t'.removeRow p.markers.main

/-- Taking a registered constraint back answers. -/
theorem run_remove (wf : s.tableau.WellFormed) {c : Constraint Rat} {registration : Registration Rat}
    (found : s.registered.get? c.tag = some registration)
    (marker : registration.marker = p.markers.main) :
    ∃ s', (remove c).run s = (.ok (), s') ∧ s.Removed p c.tag s' := by
  obtain ⟨t', exposed, relation⟩ := run_expose wf registration.marker
  have ran := run_onTableau_of_ok
    (s := { s with registered := s.registered.erase c.tag, needsOptimize := true }) exposed
  rw [remove, Step.run_bind_get, found]
  simp only [Step.run_bind_modify, Step.run_bind_report]
  rw [Step.run_bind_of_ok ran, Step.run_bind_of_ok (run_changeTableau _ _),
    run_snapshot]
  rw [marker] at relation
  exact ⟨_, rfl, rfl, rfl, rfl, rfl, rfl, t', relation, by rw [marker]; rfl⟩

/-- Taking a constraint back makes nothing known, and its marker is forgotten. -/
theorem Removed.mem_scope {tag : Tag} {c : Column} (removed : s.Removed p tag s')
    (carries : s.Carries posed goal) (member : p ∈ posed) (known : c ∈ s'.tableau.scope) :
    c ≠ p.markers.main ∧ c ∈ s.tableau.scope := by
  obtain ⟨t', exposed, same⟩ := removed.tableau
  obtain ⟨represents, inside, scope, -⟩ :=
    exposed.represents carries.represents carries.family member rfl
  rwa [same, represents.mem_scope_removeRow inside, scope] at known

/-- Taking a constraint back leaves the others, if the objective does not look at its marker. -/
theorem Removed.carries (removed : s.Removed p p.constraint.tag s') (carries : s.Carries posed goal)
    (member : p ∈ posed)
    (independent : ∀ σ x, goal (Function.update σ p.markers.main x) = goal σ) :
    s'.Carries (withoutTag posed p.constraint.tag) goal ∧
      (s.tableau.Recorded → s'.tableau.Recorded) ∧
      (s.tableau.Shaped → ¬s.tableau.Loosens p.markers.main → s'.tableau.Shaped) := by
  obtain ⟨t', exposed, same⟩ := removed.tableau
  obtain ⟨represents, inside, -, recorded⟩ :=
    exposed.represents carries.represents carries.family member rfl
  refine ⟨⟨?_, carries.family.withoutTag _, fun c known => ?_, fun q inRest c own => ?_⟩,
    fun before key pending => ?_, fun shaped tight => ?_⟩
  · rw [same]
    exact represents.removeRow_marker carries.family member inside independent
  · rw [removed.serial]
    exact carries.fresh c (removed.mem_scope carries member known).2
  · rw [removed.serial]
    exact carries.below q (mem_withoutTag.1 inRest).1 c own
  · rw [same, infeasible_removeRow, Sorted.Set.mem_erase] at pending
    exact recorded before key pending.2
  · rw [same]
    exact exposed.shaped carries.represents.toExact inside tight shaped

end Simplex

end SoftSimplex
