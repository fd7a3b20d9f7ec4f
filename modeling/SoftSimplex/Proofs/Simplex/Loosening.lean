import SoftSimplex.Proofs.Simplex.Enrolling

/-!
What taking a constraint out may break.

A required constraint is met exactly where its marker is tight: a dummy at zero, and any other marker not
negative (`Tracks.satisfied_iff`). Taking a marker out of a shaped tableau leaves no restricted column
negative, but it moves a dummy if the row that leaves has a constant while the row of a dummy mentions
the marker (`Breaks`), and then another required equation is violated (`Removed.satisfied_iff`).
-/

namespace SoftSimplex

namespace Tableau

variable {t t' : Tableau Rat} {posed : List Posed} {goal : (Column → Rat) → Rat}
  {marker key : Column}

/-- A marker is as its required constraint asks: a dummy is zero, and no other one is negative. -/
structure Tight (t : Tableau Rat) (marker : Column) : Prop where
  zero : marker.isDummy = true → t.basicSolution marker = 0
  nonneg : marker.isPivotable = true → 0 ≤ t.basicSolution marker

/-- A marker is exposed through a row with a constant, while the row of a dummy mentions it. -/
def Breaks (t : Tableau Rat) (marker : Column) : Prop :=
  ∃ exit row, Simplex.removalExit? t marker = .ok (some exit) ∧ t.rows.get? exit = some row ∧
    row.constant ≠ 0 ∧ ∃ key, key.isDummy = true ∧ t.Mentions key marker

/-! ### Where the columns stand afterwards -/

namespace Exposed

variable (exposed : t.Exposed marker t') (exact : t.Exact) (shaped : t.Shaped)
  (inside : (t'.rows.get? marker).isSome)
include exposed exact shaped inside

/-- No restricted column is negative. -/
theorem restricted_nonneg (restricted : key.isRestricted = true) :
    0 ≤ (t'.removeRow marker).basicSolution key := by
  by_cases same : key = marker
  · rw [same, basicSolution_removeRow_self]
  rw [basicSolution_removeRow same]
  cases exposed with
  | basic _ => exact (shaped.admissible exact.toWellFormed).restricted restricted
  | struck outside _ =>
      rw [get?_removeColumn exact.toWellFormed, outside] at inside
      cases inside
  | pivoted _ pivotal leaves =>
      exact leaves.nonneg exact pivotal (fun _ _ => shaped.constant_nonneg) restricted same

/-- Unless something breaks every dummy is zero. -/
theorem dummy_eq_zero (whole : ¬t.Breaks marker) (dummy : key.isDummy = true) :
    (t'.removeRow marker).basicSolution key = 0 := by
  by_cases same : key = marker
  · rw [same, basicSolution_removeRow_self]
  rw [basicSolution_removeRow same]
  cases exposed with
  | basic _ => exact shaped.anchored.basicSolution_eq_zero exact.toWellFormed dummy
  | struck outside _ =>
      rw [get?_removeColumn exact.toWellFormed, outside] at inside
      cases inside
  | @pivoted exit row chosen pivotal _ =>
      rw [exact.basicSolution_pivoted pivotal]
      cases found : t.rows.get? key with
      | none => exact ray_of_not_basic found same _
      | some other =>
          rw [ray_of_basic found, shaped.anchored.constant key other dummy found, zero_add]
          by_cases zero : other.coefficient marker = 0
          · rw [zero, zero_mul]
          · have constant : row.constant = 0 := by
              by_contra nonzero
              exact whole ⟨exit, row, chosen, pivotal.found, nonzero, key, dummy,
                mentions_of_coefficient found zero⟩
            rw [constant, neg_zero, zero_div, mul_zero]

/-- If something breaks a basic dummy is moved. -/
theorem exists_moved (breaks : t.Breaks marker) : ∃ key, key.isDummy = true ∧ key ≠ marker ∧
    (t.rows.get? key).isSome ∧ (t'.removeRow marker).basicSolution key ≠ 0 := by
  obtain ⟨exit, row, chosen, found, nonzero, key, dummy, mentioned⟩ := breaks
  obtain ⟨other, foundKey, present⟩ := mentions_iff.1 mentioned
  have outside := exact.not_basic mentioned
  have different : key ≠ marker := by
    rintro rfl
    rw [foundKey] at outside
    cases outside
  refine ⟨key, dummy, different, by rw [foundKey]; rfl, ?_⟩
  rw [basicSolution_removeRow different]
  cases exposed with
  | basic inside =>
      rw [outside] at inside
      cases inside
  | struck _ unmentioned =>
      exact absurd mentioned (unmentioned key
        (Column.not_objective_of_restricted (Column.restricted_of_dummy dummy)))
  | pivoted chosen' pivotal _ =>
      rw [chosen] at chosen'
      cases chosen'
      have foundExit := pivotal.found
      rw [found] at foundExit
      cases foundExit
      rw [exact.basicSolution_pivoted pivotal, ray_of_basic foundKey,
        shaped.anchored.constant key other dummy foundKey, zero_add]
      exact mul_ne_zero (exact.coefficient_ne_zero foundKey present)
        (div_ne_zero (neg_ne_zero.2 nonzero) (exact.entry_coefficient pivotal))

end Exposed

/-- A basic column that is restricted belongs to a constraint, or to the objective. -/
theorem Represents.exists_owner (represents : t.Represents posed goal)
    (restricted : key.isRestricted = true) (basic : (t.rows.get? key).isSome)
    (independent : (∀ q ∈ posed, key ∉ q.columns) →
      ∀ σ x, goal (Function.update σ key x) = goal σ) : ∃ q ∈ posed, key ∈ q.columns := by
  by_contra others
  push Not at others
  have free := represents.holds_update_iff restricted others (independent others)
  rw [represents.not_basic_of_free fun σ x => (free σ x).2] at basic
  cases basic

end Tableau

namespace Simplex

open Tableau

variable {s s' : Simplex Rat} {posed : List Posed} {goal : (Column → Rat) → Rat} {p : Posed}
  {c : Constraint Rat} {marker : Column} {x : Variable → Rat}

/-! ### Registered constraints -/

/-- A constraint is registered with a marker. -/
def Registers (s : Simplex Rat) (c : Constraint Rat) (marker : Column) : Prop :=
  s.registered.get? c.tag = some ⟨c, marker⟩

/-- An assignment satisfies the required constraints that are registered. -/
def Satisfied (s : Simplex Rat) (x : Variable → Rat) : Prop :=
  ∀ c marker, s.Registers c marker → c.priority = .required → c.Holds x

/-- The markers of the required constraints that are registered are tight. -/
def Tight (s : Simplex Rat) : Prop :=
  ∀ c marker, s.Registers c marker → c.priority = .required → s.tableau.Tight marker

/-- A solver carries constraints as they were given, and their markers are registered. -/
structure Tracks (s : Simplex Rat) (posed : List Posed) (goal : (Column → Rat) → Rat) : Prop where
  carries : s.Carries posed goal
  registered : ∀ tag, s.registered.get? tag =
    (posed.find? fun p => p.constraint.tag = tag).map fun p => ⟨p.constraint, p.markers.main⟩
  unmoved : ∀ p ∈ posed, p.shift = 0
  unweighted : ∀ p ∈ posed, p.constraint.priority = .required → p.markers.weight = none

namespace Tracks

variable (tracks : s.Tracks posed goal)
include tracks

theorem exact : s.tableau.Exact := tracks.carries.represents.toExact

theorem registers_iff :
    s.Registers c marker ↔ ∃ p ∈ posed, p.constraint = c ∧ p.markers.main = marker := by
  rw [Registers, tracks.registered, Option.map_eq_some_iff]
  constructor
  · rintro ⟨p, found, same⟩
    obtain ⟨constraint, main⟩ := Registration.mk.inj same
    exact ⟨p, List.mem_of_find?_eq_some found, constraint, main⟩
  · rintro ⟨p, member, rfl, rfl⟩
    exact ⟨p, tracks.carries.family.find?_tag member, rfl⟩

theorem satisfied_iff_forall : s.Satisfied x ↔
    ∀ p ∈ posed, p.constraint.priority = .required → p.constraint.Holds x := by
  constructor
  · intro satisfied p member required
    exact satisfied _ _ (tracks.registers_iff.2 ⟨p, member, rfl, rfl⟩) required
  · rintro all c marker registers required
    obtain ⟨p, member, rfl, rfl⟩ := tracks.registers_iff.1 registers
    exact all p member required

theorem value_eq : s.values.value = onVariables s.tableau.basicSolution :=
  funext fun v => value_values tracks.exact.toWellFormed v

/-- The values that are read satisfy a required constraint exactly if its marker is tight. -/
theorem holds_iff (member : p ∈ posed) (required : p.constraint.priority = .required) :
    p.constraint.Holds s.values.value ↔ s.tableau.Tight p.markers.main := by
  rw [tracks.value_eq, ← Posed.met_of_unmoved (tracks.unmoved p member),
    Posed.met_iff_admissible (tracks.carries.family.fits p member) required
      (tracks.unweighted p member required) (tracks.carries.represents.equation member)]
  exact ⟨fun ⟨zero, nonneg⟩ => ⟨zero, nonneg⟩, fun tight => ⟨tight.zero, tight.nonneg⟩⟩

/-- The values that are read satisfy the required constraints exactly if their markers are tight. -/
theorem satisfied_iff : s.Satisfied s.values.value ↔ s.Tight := by
  rw [tracks.satisfied_iff_forall]
  constructor
  · rintro all c marker registers required
    obtain ⟨p, member, rfl, rfl⟩ := tracks.registers_iff.1 registers
    exact (tracks.holds_iff member required).1 (all p member required)
  · intro tight p member required
    exact (tracks.holds_iff member required).2
      (tight _ _ (tracks.registers_iff.2 ⟨p, member, rfl, rfl⟩) required)

/-- Where no pivotable column is negative the required inequalities are satisfied. -/
theorem holds_of_feasible (feasible : s.tableau.Feasible) (member : p ∈ posed)
    (required : p.constraint.priority = .required) (unequal : p.constraint.comparator ≠ .eq) :
    p.constraint.Holds s.values.value := by
  refine (tracks.holds_iff member required).2 ⟨fun dummy => ?_, feasible _⟩
  have fits := tracks.carries.family.fits p member
  rcases Markers.Fits.pivotable_or_dummy fits p.markers.main_mem_columns with
    pivotable | ⟨-, -, equation⟩
  · rw [Column.not_dummy_of_pivotable pivotable] at dummy
    cases dummy
  · exact absurd (equation required) unequal

/-- In a shaped tableau every marker is tight. -/
theorem satisfied_of_shaped (shaped : s.tableau.Shaped) : s.Satisfied s.values.value := by
  have admissible := shaped.admissible tracks.exact.toWellFormed
  exact tracks.satisfied_iff.2 fun _ marker _ _ => ⟨admissible.zero marker, admissible.nonneg marker⟩

theorem turned (turned : s.Turned s') : s'.Tracks posed goal where
  carries := tracks.carries.turns turned.turns turned.serial
  registered := by
    rw [turned.registered]
    exact tracks.registered
  unmoved := tracks.unmoved
  unweighted := tracks.unweighted

end Tracks

/-! ### Taking a constraint out -/

section

variable (tracks : s.Tracks posed goal) (member : p ∈ posed)
  (removed : s.Removed p p.constraint.tag s')
  (independent : ∀ c, c.isRestricted = true →
    (∀ q ∈ withoutTag posed p.constraint.tag, c ∉ q.columns) →
      ∀ σ x, goal (Function.update σ c x) = goal σ)
include tracks member removed independent

/-- The other constraints are tracked when a constraint was taken out. -/
theorem Tracks.takenOut : s'.Tracks (withoutTag posed p.constraint.tag) goal where
  carries := by
    have family := tracks.carries.family
    have own := p.markers.main_mem_columns
    refine (Removed.carries removed tracks.carries member (independent _
      (Markers.Fits.restricted (family.fits p member) own) fun q inRest inQ => ?_)).1
    obtain ⟨inside, different⟩ := mem_withoutTag.1 inRest
    exact different (congrArg (·.constraint.tag) (family.apart q inside p member _ inQ own))
  registered tag := by
    rw [Removed.registered removed, Sorted.Map.get?_erase, find?_withoutTag]
    split
    · rfl
    · exact tracks.registered tag
  unmoved q inRest := tracks.unmoved q (mem_withoutTag.1 inRest).1
  unweighted q inRest := tracks.unweighted q (mem_withoutTag.1 inRest).1

variable (shaped : s.tableau.Shaped)
include shaped

omit independent in
/-- No pivotable column is negative when a constraint was taken out. -/
theorem Tracks.feasible_of_removed : s'.tableau.Feasible := by
  obtain ⟨t', exposed, same⟩ := removed.tableau
  obtain ⟨-, inside, -⟩ :=
    exposed.represents tracks.carries.represents tracks.carries.family member rfl
  intro c pivotable
  rw [same]
  exact exposed.restricted_nonneg tracks.exact shaped inside
    (Column.restricted_of_pivotable pivotable)

/-- The other required constraints are satisfied exactly if nothing breaks. -/
theorem Tracks.satisfied_removed_iff
    (weighted : ∀ q ∈ posed, q.markers.weight = none → q.constraint.priority = .required) :
    s'.Satisfied s'.values.value ↔ ¬s.tableau.Breaks p.markers.main := by
  obtain ⟨t', exposed, same⟩ := removed.tableau
  have family := tracks.carries.family
  obtain ⟨-, inside, -⟩ := exposed.represents tracks.carries.represents family member rfl
  have tracks' := tracks.takenOut member removed independent
  rw [tracks'.satisfied_iff]
  constructor
  · intro tight breaks
    obtain ⟨key, dummy, different, basic, moved⟩ :=
      exposed.exists_moved tracks.exact shaped inside breaks
    have restricted := Column.restricted_of_dummy dummy
    obtain ⟨q, inPosed, own⟩ := tracks.carries.represents.exists_owner restricted basic
      fun others => independent key restricted fun q inRest =>
        others q (mem_withoutTag.1 inRest).1
    have fits := family.fits q inPosed
    have required := weighted q inPosed (Posed.Fits.required_of_dummy fits own dummy)
    have main : key = q.markers.main := Posed.Fits.eq_main_of_dummy fits required own dummy
    have inRest : q ∈ withoutTag posed p.constraint.tag := by
      refine mem_withoutTag.2 ⟨inPosed, fun tagged => different ?_⟩
      rw [main, family.eq_of_tag inPosed member tagged]
    have zero := (tight _ _ (tracks'.registers_iff.2 ⟨q, inRest, rfl, rfl⟩) required).zero
      (main ▸ dummy)
    rw [← main, same] at zero
    exact moved zero
  · intro whole c marker _ _
    rw [same]
    exact ⟨exposed.dummy_eq_zero tracks.exact shaped inside whole, fun pivotable =>
      exposed.restricted_nonneg tracks.exact shaped inside
        (Column.restricted_of_pivotable pivotable)⟩

end

end Simplex

end SoftSimplex
