import SoftSimplex.Column

/-!
How the kinds of columns exclude each other, and the order of columns.

Restricted columns are the pivotable ones and the dummies. A column of either sort is neither an
objective nor an unknown of the caller.
-/

namespace SoftSimplex.Column

variable {a b c : Column}

/-- Pivotable columns may not become negative. -/
theorem restricted_of_pivotable (pivotable : c.isPivotable = true) : c.isRestricted = true := by
  cases c with
  | external v => cases pivotable
  | symbol s =>
      obtain ⟨kind, label, serial⟩ := s
      cases kind <;> simp_all [isPivotable, isRestricted]

theorem restricted_of_dummy (dummy : c.isDummy = true) : c.isRestricted = true := by
  cases c with
  | external v => cases dummy
  | symbol s =>
      obtain ⟨kind, label, serial⟩ := s
      cases kind <;> simp_all [isDummy, isRestricted]

/-- What may not become negative is pivotable or a dummy. -/
theorem pivotable_or_dummy (restricted : c.isRestricted = true) :
    c.isPivotable = true ∨ c.isDummy = true := by
  cases c with
  | external v => cases restricted
  | symbol s =>
      obtain ⟨kind, label, serial⟩ := s
      cases kind <;> simp_all [isDummy, isPivotable, isRestricted]

theorem pivotable_of_slack (slack : c.isSlack = true) : c.isPivotable = true := by
  cases c with
  | external v => cases slack
  | symbol s =>
      obtain ⟨kind, label, serial⟩ := s
      cases kind <;> simp_all [isSlack, isPivotable]

/-- Dummies are not pivotable. -/
theorem not_pivotable_of_dummy (dummy : c.isDummy = true) : c.isPivotable = false := by
  cases c with
  | external v => rfl
  | symbol s =>
      obtain ⟨kind, label, serial⟩ := s
      cases kind <;> simp_all [isDummy, isPivotable]

theorem not_dummy_of_pivotable (pivotable : c.isPivotable = true) : c.isDummy = false := by
  rw [← Bool.not_eq_true]
  intro dummy
  rw [not_pivotable_of_dummy dummy] at pivotable
  cases pivotable

theorem not_objective_of_restricted (restricted : c.isRestricted = true) :
    c.isObjective = false := by
  cases c with
  | external v => rfl
  | symbol s =>
      obtain ⟨kind, label, serial⟩ := s
      cases kind <;> simp_all [isRestricted, isObjective]

theorem not_objective_of_pivotable (pivotable : c.isPivotable = true) : c.isObjective = false :=
  not_objective_of_restricted (restricted_of_pivotable pivotable)

/-- Objectives are not pivotable. -/
theorem not_pivotable_of_objective (objective : c.isObjective = true) : c.isPivotable = false := by
  rw [← Bool.not_eq_true]
  intro pivotable
  rw [not_objective_of_pivotable pivotable] at objective
  cases objective

theorem not_external_of_restricted (restricted : c.isRestricted = true) :
    c.isExternal = false := by
  cases c with
  | external v => cases restricted
  | symbol s => rfl

theorem not_objective_of_external (external : c.isExternal = true) : c.isObjective = false := by
  cases c with
  | external v => rfl
  | symbol s => cases external

theorem not_pivotable_of_external (external : c.isExternal = true) : c.isPivotable = false := by
  rw [← Bool.not_eq_true]
  intro pivotable
  rw [not_external_of_restricted (restricted_of_pivotable pivotable)] at external
  cases external

/-- What is neither an unknown of the caller nor an objective may not become negative. -/
theorem restricted_of_internal (notExternal : c.isExternal = false)
    (notObjective : c.isObjective = false) : c.isRestricted = true := by
  cases c with
  | external v => cases notExternal
  | symbol s =>
      obtain ⟨kind, label, serial⟩ := s
      cases kind <;> simp_all [isRestricted, isObjective]

/-! ### The order of columns -/

/-- No column comes before itself. -/
theorem not_before_self (c : Column) : compare c c ≠ .lt := by
  have equal : compare c c = .eq := Std.ReflCmp.compare_self
  rw [equal]
  simp

/-- Of two columns at most one comes before the other. -/
theorem not_before_of_before (before : compare a b = .lt) : compare b a ≠ .lt := by
  rw [Std.OrientedCmp.gt_of_lt before]
  simp

end SoftSimplex.Column
