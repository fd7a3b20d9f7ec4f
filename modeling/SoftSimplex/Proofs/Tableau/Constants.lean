import SoftSimplex.Proofs.Tableau.Repair

/-!
Tableaus that differ in constants.

Moving constants leaves the shape of a tableau alone (`Alike`): what its rows mention, what lowers its
objective, and what it knows. If every row moves by its coefficient of a column, or the row of a basic
column moves, then the assignments that hold are those that held before with that column moved
(`Displaced`).
-/

namespace SoftSimplex.Tableau

variable {t t' t'' : Tableau Rat} {key column c : Column} {row row' goal : Row Rat} {σ : Column → Rat}
  {δ constant : Rat}

/-- Two tableaus differ in constants, and in what awaits repair. -/
structure Alike (t t' : Tableau Rat) : Prop where
  tolerance : t'.tolerance = t.tolerance
  index : t'.index = t.index
  basics : t'.basicVariables = t.basicVariables
  parametric : t'.parametricVariables = t.parametricVariables
  logged : t'.logged = t.logged
  terms : ∀ key, (t'.rows.get? key).map Row.terms = (t.rows.get? key).map Row.terms

namespace Alike

theorem refl (t : Tableau Rat) : t.Alike t := ⟨rfl, rfl, rfl, rfl, rfl, fun _ => rfl⟩

theorem trans (first : t.Alike t') (second : t'.Alike t'') : t.Alike t'' where
  tolerance := second.tolerance.trans first.tolerance
  index := second.index.trans first.index
  basics := second.basics.trans first.basics
  parametric := second.parametric.trans first.parametric
  logged := second.logged.trans first.logged
  terms key := (second.terms key).trans (first.terms key)

variable (alike : t.Alike t')
include alike

theorem exact (start : t.Exact) : t'.Exact :=
  ⟨start.toWellFormed.of_terms alike.tolerance alike.index alike.basics alike.terms,
    alike.tolerance.trans start.exact⟩

theorem isSome_eq (key : Column) : (t'.rows.get? key).isSome = (t.rows.get? key).isSome := by
  rw [← Option.isSome_map, alike.terms key, Option.isSome_map]

theorem absent_iff : t'.rows.get? key = none ↔ t.rows.get? key = none := by
  rw [← Option.not_isSome_iff_eq_none, ← Option.not_isSome_iff_eq_none, alike.isSome_eq]

/-- A row of the one tableau is a row of the other with another constant. -/
theorem exists_row (found : t'.rows.get? key = some row') :
    ∃ row, t.rows.get? key = some row ∧ row'.terms = row.terms := by
  have same := alike.terms key
  rw [found, Option.map_some] at same
  obtain ⟨row, stored, terms⟩ := Option.map_eq_some_iff.1 same.symm
  exact ⟨row, stored, terms.symm⟩

theorem mentions (mentioned : t'.Mentions key c) : t.Mentions key c := by
  obtain ⟨row', found', present⟩ := mentions_iff.1 mentioned
  obtain ⟨row, found, terms⟩ := alike.exists_row found'
  exact mentions_iff.2 ⟨row, found, terms ▸ present⟩

theorem scope_eq : t'.scope = t.scope := by
  ext c
  rw [mem_scope, mem_scope, alike.isSome_eq, alike.index]

theorem sheltered (start : t.Sheltered) : t'.Sheltered := fun key c restricted mentioned =>
  start key c restricted (alike.mentions mentioned)

theorem insulated (start : t.Insulated) : t'.Insulated := fun key c dummy mentioned =>
  start key c dummy (alike.mentions mentioned)

/-- What lowers an objective is seen by its terms. -/
theorem minimal (start : ∀ goal, t.rows.get? key = some goal → Minimal goal)
    (found : t'.rows.get? key = some row') : Minimal row' := by
  obtain ⟨goal, stored, terms⟩ := alike.exists_row found
  intro c pivotable
  have least := start goal stored c pivotable
  rwa [Row.coefficient, ← terms] at least

end Alike

theorem alike_setConstant (t : Tableau Rat) (column : Column) (constant : Rat) :
    t.Alike (t.setConstant column constant) := by
  obtain ⟨rows, same⟩ := t.setConstant_eq column constant
  refine ⟨by rw [same], by rw [same], by rw [same], by rw [same], by rw [same], fun key => ?_⟩
  rw [get?_setConstant]
  split
  · rw [Option.map_map]
    rfl
  · rfl

/-! ### Constants that are recorded -/

/-- The tableau in which a row has another constant, and awaits repair if that is negative. -/
def restated (t : Tableau Rat) (key : Column) (constant : Rat) : Tableau Rat :=
  (t.setConstant key constant).markIfRestricted key constant

/-- Restating records a constant that is negative, and changes nothing else of what awaits repair. -/
theorem restated_eq (exact : t.tolerance = some 0) (key : Column) (constant : Rat) :
    ∃ infeasible, t.restated key constant = { t.setConstant key constant with infeasible } ∧
      ∀ r, r ∈ infeasible ↔ (r = key ∧ key.isRestricted = true ∧ constant < 0) ∨ r ∈ t.infeasible := by
  have exact' : (t.setConstant key constant).tolerance = some 0 := by
    rw [tolerance_setConstant, exact]
  obtain ⟨infeasible, same, members⟩ :=
    markIfRestricted_eq exact' key ({ constant, terms := ∅ } : Row Rat)
  refine ⟨infeasible, same, fun r => ?_⟩
  rw [members, infeasible_setConstant, Violates, neg_zero]

section

variable (exact : t.tolerance = some 0)
include exact

theorem rows_restated (key : Column) (constant : Rat) :
    (t.restated key constant).rows = (t.setConstant key constant).rows := by
  obtain ⟨infeasible, same, -⟩ := restated_eq exact key constant
  rw [same]

theorem alike_restated (key : Column) (constant : Rat) : t.Alike (t.restated key constant) := by
  obtain ⟨infeasible, same, -⟩ := restated_eq exact key constant
  have moved := t.alike_setConstant key constant
  rw [same]
  exact ⟨moved.tolerance, moved.index, moved.basics, moved.parametric, moved.logged, moved.terms⟩

theorem Tracked.restated (tracked : t.Tracked) (key : Column) (constant : Rat) :
    (t.restated key constant).Tracked := by
  obtain ⟨infeasible, same, members⟩ := restated_eq exact key constant
  rw [same]
  constructor
  · intro r member
    rcases (members r).1 member with ⟨rfl, restricted, -⟩ | before
    · exact restricted
    · exact tracked.only r before
  · intro r row found restricted negative
    refine (members r).2 ?_
    change (t.setConstant key constant).rows.get? r = some row at found
    rw [get?_setConstant] at found
    split at found
    · next own =>
        obtain ⟨old, -, rfl⟩ := Option.map_eq_some_iff.1 found
        exact .inl ⟨own.symm, own ▸ restricted, negative⟩
    · exact .inr (tracked.all r row found restricted negative)

end

/-! ### Displaced assignments -/

/-- The assignments that hold are those that held with a column moved. -/
def Displaced (t : Tableau Rat) (c : Column) (δ : Rat) (t' : Tableau Rat) : Prop :=
  ∀ σ, t'.Holds σ ↔ t.Holds (Function.update σ c (σ c + δ))

theorem Exact.displaced_setConstant (exact : t.Exact) (found : t.rows.get? c = some row)
    (constant : Rat) : t.Displaced c (row.constant - constant) (t.setConstant c constant) :=
  fun _ => exact.holds_setConstant found constant

/-- Moving every row by its coefficient moves a column outside the basis. -/
theorem displaced_of_swept (outside : t.rows.get? c = none)
    (swept : ∀ key, t'.rows.get? key = (t.rows.get? key).map fun row =>
      { row with constant := row.constant + row.coefficient c * δ }) : t.Displaced c δ t' := by
  have moved (row : Row Rat) (σ : Column → Rat) :
      ({ row with constant := row.constant + row.coefficient c * δ } : Row Rat).eval σ =
        row.eval (Function.update σ c (σ c + δ)) := by
    rw [Row.eval_update_assignment]
    have grown := Row.eval_addConstant row (row.coefficient c * δ) σ
    rw [show row.coefficient c * (σ c + δ - σ c) = row.coefficient c * δ by ring]
    exact grown
  intro σ
  constructor
  · intro holds key row found
    have different : key ≠ c := by
      rintro rfl
      rw [found] at outside
      cases outside
    rw [Function.update_of_ne different, ← moved]
    exact holds key _ (by rw [swept, found, Option.map_some])
  · intro holds key row' found'
    rw [swept] at found'
    obtain ⟨row, found, rfl⟩ := Option.map_eq_some_iff.1 found'
    have different : key ≠ c := by
      rintro rfl
      rw [found] at outside
      cases outside
    have own := holds key row found
    rwa [Function.update_of_ne different, ← moved] at own

end SoftSimplex.Tableau
