import SoftSimplex.Proofs.Solver.Sessions

/-!
Suggestions that are applied.

A suggestion moves one column of the edited constraint in the equations of the tableau, whichever of the
three ways it takes, so that the target of the constraint moves by the change of the value (`run_shift`).
The rows that become negative are recorded, and the objective row stays as it is.
-/

namespace SoftSimplex

open Tableau

namespace Tableau

variable {t t' : Tableau Rat} {column key c : Column} {row : Row Rat} {δ change : Rat}

theorem Displaced.of_rows {t'' : Tableau Rat} (displaced : t.Displaced c δ t')
    (same : t''.rows = t'.rows) : t.Displaced c δ t'' := by
  intro σ
  rw [← displaced σ, Holds, Holds, same]

/-- Restating the row of a column outside the objective moves that column. -/
theorem Exact.displaced_restated (exact : t.Exact) (found : t.rows.get? c = some row)
    (constant : Rat) : t.Displaced c (row.constant - constant) (t.restated c constant) :=
  (exact.displaced_setConstant found constant).of_rows (rows_restated exact.exact c constant)

end Tableau

namespace Solver

variable {t t' : Tableau Rat} {column key c : Column} {row : Row Rat} {change : Rat}
  {m : Markers Rat}

/-- What moving the constants of a tableau comes to: one column of a constraint moved so that the target
of the constraint moved by the change. -/
structure Shifted (t : Tableau Rat) (m : Markers Rat) (change : Rat) (t' : Tableau Rat) : Prop where
  alike : t.Alike t'
  tracked : t.Tracked → t'.Tracked
  displaced : ∃ term ∈ m.terms, ∃ δ, term.2 * δ = change ∧ t.Displaced term.1 δ t'

theorem run_shiftRow (found : t.rows.get? key = some row) (mentioned : row.terms.contains column = true)
    (change : Rat) : (shiftRow column change key).run t =
      (.ok (), t.restated key (row.constant + row.coefficient column * change)) := by
  obtain ⟨k, stored⟩ := Sorted.Map.contains_iff.1 mentioned
  rw [shiftRow, Step.run_bind_get, found, Step.run_bind_ofOption_some, stored,
    Step.run_bind_ofOption_some, Step.checked_rat, Step.run_bind_ofExcept_ok,
    Row.coefficient_of_get? stored]
  rfl

/-- Every row that mentions a column moves by its coefficient. -/
theorem run_forEach_shiftRow {keys : List Column} (exact : t.tolerance = some 0)
    (nodup : keys.Nodup) (mention : ∀ key ∈ keys, t.Mentions key column) (change : Rat) :
    ∃ t', (Step.forEach keys (shiftRow column change)).run t = (.ok (), t') ∧ t.Alike t' ∧
      (t.Tracked → t'.Tracked) ∧ ∀ key, t'.rows.get? key =
        if key ∈ keys then (t.rows.get? key).map fun row =>
          { row with constant := row.constant + row.coefficient column * change }
        else t.rows.get? key := by
  induction keys generalizing t with
  | nil => exact ⟨t, rfl, .refl t, id, fun key => by simp⟩
  | cons first rest ih =>
      obtain ⟨row, found, present⟩ := mentions_iff.1 (mention first List.mem_cons_self)
      obtain ⟨new, nodupRest⟩ := List.nodup_cons.1 nodup
      have alike := alike_restated exact first (row.constant + row.coefficient column * change)
      have rows : ∀ key, (t.restated first (row.constant + row.coefficient column * change)).rows.get?
          key = if first = key then (t.rows.get? key).map fun row' =>
            { row' with constant := row.constant + row.coefficient column * change }
          else t.rows.get? key := fun key => by
        rw [rows_restated exact, get?_setConstant]
      obtain ⟨t', ran, alike', tracked, swept⟩ := ih (alike.tolerance.trans exact) nodupRest
        fun key inRest => by
          obtain ⟨row', found', present'⟩ := mentions_iff.1 (mention key (List.mem_cons_of_mem _ inRest))
          refine mentions_iff.2 ⟨row', ?_, present'⟩
          have different : first ≠ key := by
            rintro rfl
            exact new inRest
          rw [rows, if_neg different, found']
      refine ⟨t', ?_, alike.trans alike',
        fun before => tracked (Tracked.restated exact before _ _), fun key => ?_⟩
      · rw [Step.run_forEach_cons_of_ok (run_shiftRow found present change)]
        exact ran
      · rw [swept, rows]
        by_cases same : first = key
        · subst same
          rw [if_neg new, if_pos rfl, if_pos List.mem_cons_self, found]
          rfl
        · rw [if_neg same]
          simp [Ne.symm same]

theorem run_shift_of_basic {sign : Rat} (basic : basicMarker? t m = some (c, sign))
    (found : t.rows.get? c = some row) (change : Rat) :
    (shift m change).run t = (.ok (),
      (t.setConstant c (row.constant + sign * change)).markIfNegative c
        (row.constant + sign * change)) := by
  rw [shift, Step.run_bind_get, basic]
  dsimp only
  rw [found, Step.run_bind_ofOption_some, Step.checked_rat, Step.run_bind_ofExcept_ok,
    Step.run_set]

theorem run_shift_of_outside (outside : basicMarker? t m = none) (sub : m.sub = some column)
    (change : Rat) : (shift m change).run t =
      (Step.forEach (t.rowsWith column) (shiftRow column change)).run t := by
  rw [shift, Step.run_bind_get, outside]
  dsimp only
  rw [sub]

section

variable (exact : t.Exact)
include exact

/-- Every row moves by its coefficient of the column that its constant is shifted by. -/
theorem run_sweep (column : Column) (change : Rat) :
    ∃ t', (Step.forEach (t.rowsWith column) (shiftRow column change)).run t = (.ok (), t') ∧
      t.Alike t' ∧ (t.Tracked → t'.Tracked) ∧ ∀ key, t'.rows.get? key =
        (t.rows.get? key).map fun row =>
          { row with constant := row.constant + row.coefficient column * change } := by
  have mention : ∀ key ∈ t.rowsWith column, t.Mentions key column := fun key listed =>
    (exact.listed key column).1 (mem_rowsWith.1 listed)
  obtain ⟨t', ran, alike, tracked, swept⟩ :=
    run_forEach_shiftRow exact.exact (t.nodup_rowsWith column) mention change
  refine ⟨t', ran, alike, tracked, fun key => ?_⟩
  rw [swept]
  split
  · rfl
  · next unlisted =>
      cases found : t.rows.get? key with
      | none => rfl
      | some row =>
          have zero : row.coefficient column = 0 := by
            by_contra nonzero
            exact unlisted (mem_rowsWith.2
              ((exact.listed key column).2 (mentions_of_coefficient found nonzero)))
          rw [Option.map_some, zero, zero_mul, add_zero]

/-- The row of a basic marker takes up the whole change. -/
theorem shifted_restated (restricted : c.isRestricted = true) (found : t.rows.get? c = some row)
    {k sign : Rat} (own : (c, k) ∈ m.terms) (inverse : k * -sign = 1) (change : Rat) :
    Shifted t m change
      ((t.setConstant c (row.constant + sign * change)).markIfNegative c
        (row.constant + sign * change)) := by
  have same : (t.setConstant c (row.constant + sign * change)).markIfNegative c
      (row.constant + sign * change) = t.restated c (row.constant + sign * change) := by
    rw [restated, markIfRestricted, if_pos restricted]
  rw [same]
  refine ⟨alike_restated exact.exact _ _, fun before => Tracked.restated exact.exact before _ _,
    (c, k), own, _, ?_, exact.displaced_restated found _⟩
  dsimp only
  calc k * (row.constant - (row.constant + sign * change)) = k * -sign * change := by ring
    _ = change := by rw [inverse, one_mul]

/-- Whichever marker of an equation is basic, its target moves by the change. -/
theorem run_shift {priority : Priority} (fits : m.Fits priority .eq) (change : Rat) :
    ∃ t', (shift m change).run t = (.ok (), t') ∧ Shifted t m change t' := by
  cases fits with
  | @equation dummy isDummy =>
      have restricted := Column.restricted_of_dummy isDummy
      cases found : t.rows.get? dummy with
      | some row =>
          have basic : basicMarker? t { main := dummy, sub := some dummy } = some (dummy, -1) := by
            simp [basicMarker?, Markers.editSigns, isBasic, Sorted.Map.contains, found]
          refine ⟨_, run_shift_of_basic basic found change,
            shifted_restated exact restricted found (k := 1) ?_ (by norm_num) change⟩
          rw [Markers.terms_same]
          exact List.mem_singleton_self _
      | none =>
          have outside : basicMarker? t { main := dummy, sub := some dummy } = none := by
            simp [basicMarker?, Markers.editSigns, isBasic, Sorted.Map.contains, found]
          obtain ⟨t', ran, alike, tracked, swept⟩ := run_sweep exact dummy change
          refine ⟨t', (run_shift_of_outside outside rfl change).trans ran, alike, tracked,
            (dummy, 1), ?_, change, one_mul _, displaced_of_swept found swept⟩
          rw [Markers.terms_same]
          exact List.mem_singleton_self _
  | @wishedEquation plus minus weight plusIsSlack minusIsSlack apart =>
      have restricted {d : Column} (slack : d.isSlack = true) : d.isRestricted = true :=
        Column.restricted_of_pivotable (Column.pivotable_of_slack slack)
      have terms : (⟨plus, some minus, [plus, minus], some weight⟩ : Markers Rat).terms =
          [(plus, -1), (minus, 1)] := Markers.terms_pair apart
            (Column.not_dummy_of_pivotable (Column.pivotable_of_slack plusIsSlack))
      have signs : (⟨plus, some minus, [plus, minus], some weight⟩ : Markers Rat).editSigns =
          [(some plus, 1), (some minus, -1)] := if_neg (by simpa using apart)
      cases foundPlus : t.rows.get? plus with
      | some row =>
          have basic : basicMarker? t ⟨plus, some minus, [plus, minus], some weight⟩ =
              some (plus, 1) := by
            simp [basicMarker?, signs, isBasic, Sorted.Map.contains, foundPlus]
          refine ⟨_, run_shift_of_basic basic foundPlus change,
            shifted_restated exact (restricted plusIsSlack) foundPlus (k := -1) ?_ (by norm_num)
              change⟩
          rw [terms]
          exact List.mem_cons_self
      | none =>
          cases foundMinus : t.rows.get? minus with
          | some row =>
              have basic : basicMarker? t ⟨plus, some minus, [plus, minus], some weight⟩ =
                  some (minus, -1) := by
                simp [basicMarker?, signs, isBasic, Sorted.Map.contains, foundPlus, foundMinus]
              refine ⟨_, run_shift_of_basic basic foundMinus change,
                shifted_restated exact (restricted minusIsSlack) foundMinus (k := 1) ?_
                  (by norm_num) change⟩
              rw [terms]
              exact List.mem_cons_of_mem _ (List.mem_singleton_self _)
          | none =>
              have outside : basicMarker? t ⟨plus, some minus, [plus, minus], some weight⟩ =
                  none := by
                simp [basicMarker?, signs, isBasic, Sorted.Map.contains, foundPlus, foundMinus]
              obtain ⟨t', ran, alike, tracked, swept⟩ := run_sweep exact minus change
              refine ⟨t', (run_shift_of_outside outside rfl change).trans ran, alike, tracked,
                (minus, 1), ?_, change, one_mul _, displaced_of_swept foundMinus swept⟩
              rw [terms]
              exact List.mem_cons_of_mem _ (List.mem_singleton_self _)
  | bound unequal _ => exact absurd rfl unequal
  | wishedBound unequal _ _ _ => exact absurd rfl unequal
  | side _ unequal _ _ => exact absurd rfl unequal
  | turnedSide _ unequal _ _ => exact absurd rfl unequal

end

end Solver

end SoftSimplex
