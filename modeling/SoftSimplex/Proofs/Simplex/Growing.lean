import SoftSimplex.Proofs.Simplex.Founding

/-!
Adding required constraints to a simplex solver.

A required equation is marked by a dummy and a required inequality by a slack. The constraint joins the
family that the solver carries, or else no assignment meets it together with that family
(`Carries.growing`).
-/

namespace SoftSimplex

/-- The markers of a required constraint with a column. -/
def Markers.required (comparator : Comparator) (column : Column) : Markers Rat :=
  match comparator with
  | .eq => { main := column, sub := some column }
  | _ => { main := column }

/-- A required constraint that is marked by a column. -/
def Posed.required (c : Constraint Rat) (column : Column) : Posed :=
  ⟨⟨c, .required c.comparator column⟩, 0⟩

namespace Posed

variable {c : Constraint Rat} {column : Column}

theorem weight_required : (required c column).markers.weight = none := by
  unfold required Markers.required
  cases c.comparator <;> rfl

theorem errors_required : (required c column).markers.errors = [] := by
  unfold required Markers.required
  cases c.comparator <;> rfl

theorem main_required : (required c column).markers.main = column := by
  unfold required Markers.required
  cases c.comparator <;> rfl

theorem columns_required : (required c column).columns = [column] := by
  unfold columns required Markers.required
  cases c.comparator with
  | eq => exact Markers.columns_same
  | le | ge => exact Markers.columns_single

/-- Among required constraints only equations are marked by dummies. -/
theorem comparator_of_dummy (fits : (required c column).Fits) (dummy : column.isDummy = true) :
    c.comparator = .eq := by
  cases comparator : c.comparator with
  | eq => rfl
  | le | ge =>
      rw [Fits, required, comparator] at fits
      cases fits with
      | bound _ isSlack =>
          rw [Column.not_dummy_of_pivotable (Column.pivotable_of_slack isSlack)] at dummy
          cases dummy

theorem cost_required (σ : Column → Rat) : (required c column).cost σ = 0 := by
  rw [cost, errors_required, List.map_nil, List.sum_nil, mul_zero]

end Posed

namespace Simplex

open Tableau

variable {s s' : Simplex Rat} {posed : List Posed} {goal : (Column → Rat) → Rat}
  {c : Constraint Rat}

/-- The row of a required constraint with its column is made, and everything else is as before. -/
theorem exists_markedRow (wf : s.tableau.WellFormed) (c : Constraint Rat) : ∃ column s₁,
    (markedRow c).run s = (.ok (s.posedRow (.required c column), column), s₁) ∧
      (Posed.required c column).Fits ∧ s.Prepared (.required c column) s₁ := by
  have prepared {column : Column} {s₁ : Simplex Rat} (made : s.Made column s₁) :
      s.Prepared (.required c column) s₁ := by
    refine ⟨made.keeps, made.flag, fun other own => ?_, [], by rw [Posed.errors_required],
      made.tableau⟩
    rw [Posed.columns_required, List.mem_singleton] at own
    exact own ▸ made.numbered
  rw [markedRow, Step.run_bind_of_ok (run_residualRow wf c)]
  cases comparator : c.comparator with
  | eq =>
      obtain ⟨dummy, s₁, ran, made, isDummy⟩ := run_freshDummy s
      dsimp only
      rw [Step.run_bind_of_ok ran]
      refine ⟨dummy, s₁, ?_, ?_, prepared made⟩
      · rw [posedRow, Posed.required, comparator, Markers.required, Markers.mark,
          Markers.terms_same]
        rfl
      · rw [Posed.Fits, Posed.required, comparator]
        exact .equation isDummy
  | le | ge =>
      obtain ⟨slack, s₁, ran, made, isSlack⟩ := run_freshSlack s
      dsimp only
      rw [Step.run_bind_of_ok ran]
      refine ⟨slack, s₁, ?_, ?_, prepared made⟩
      · rw [posedRow, Posed.required, comparator, Markers.required, Markers.mark,
          Markers.terms_single]
        · rfl
        · exact fun same => by cases same
      · rw [Posed.Fits, Posed.required, comparator]
        exact .bound (by simp) isSlack

/-- A constraint that was registered with its marker is found. -/
theorem registered_insert {column : Column}
    (registered : ∀ tag, s.registered.get? tag =
      (posed.find? fun p => p.constraint.tag = tag).map fun p => ⟨p.constraint, p.markers.main⟩)
    (inserted : s'.registered = s.registered.insert c.tag ⟨c, column⟩) (tag : Tag) :
    s'.registered.get? tag = ((.required c column :: posed).find? fun p =>
      p.constraint.tag = tag).map fun p => ⟨p.constraint, p.markers.main⟩ := by
  have own : (Posed.required c column).constraint.tag = c.tag := rfl
  rw [inserted, Sorted.Map.get?_insert, find?_cons_tag, registered, own]
  by_cases same : c.tag = tag
  · rw [if_pos same, if_pos same, Option.map_some, Posed.main_required]
    rfl
  · rw [if_neg same, if_neg same]

/-- What adding a required constraint may come to. -/
inductive Growing (s : Simplex Rat) (posed : List Posed) (goal : (Column → Rat) → Rat)
    (c : Constraint Rat) : Except (Fault Rat) Unit × Simplex Rat → Prop where
  | grown {column : Column} {s' : Simplex Rat} (sameGoal : s'.goal = s.goal)
      (sameMade : s'.nextMade = s.nextMade)
      (registered : s'.registered = s.registered.insert c.tag ⟨c, column⟩)
      (needed : s'.needsOptimize = true)
      (carries : s'.Carries (.required c column :: posed) goal)
      (inserted : s.tableau.Inserted (s.posedRow (.required c column)) s'.tableau)
      (restricted : column.isRestricted = true) : Growing s posed goal c (.ok (), s')
  | refused {fault : Fault Rat} {s' : Simplex Rat}
      (reason : s.tableau.Shaped → fault.isInfeasible = true ∧
        ∀ x, MeetsRequired posed x → ¬c.Holds x) : Growing s posed goal c (.error fault, s')

/-- A required constraint joins the family, unless a shaped tableau cannot meet it. -/
theorem Carries.growing (carries : s.Carries posed goal)
    (new : ∀ q ∈ posed, q.constraint.tag ≠ c.tag) (required : c.priority = .required)
    (unregistered : s.has c = false) : Growing s posed goal c ((add c).run s) := by
  obtain ⟨column, s₁, marking, fits, prepared⟩ :=
    exists_markedRow carries.represents.toWellFormed c
  have posing := carries.posing fits rfl new prepared
  have columns : (Posed.required c column).markers.columns = [column] := Posed.columns_required
  have tableau := prepared.tableau_eq fits Posed.weight_required
  rw [add, Step.run_bind_get, unregistered, if_neg Bool.false_ne_true, required]
  simp only [Priority.isRequired, Bool.not_true, Bool.false_eq_true, if_false,
    Step.run_bind_report]
  rw [Step.run_bind_of_ok marking]
  rw [columns] at posing
  dsimp only
  generalize ran : (insertRow (s.posedRow (.required c column)) [column]).run s₁ = ended at posing
  cases posing with
  | @posed s₂ keeps needed carries' inserted _ _ _ =>
      rw [Step.run_bind_of_ok ran, Step.run_bind_modify, run_snapshot]
      have same : s₂.Carries (.required c column :: posed) goal := carries'.congr fun σ => by
        rw [Posed.cost_required, add_zero]
      refine .grown keeps.goal keeps.nextMade (congrArg (·.insert c.tag ⟨c, column⟩)
        keeps.registered) needed ⟨same.represents, same.family, same.fresh, same.below⟩
        (tableau ▸ inserted) (Markers.Fits.restricted fits ?_)
      rw [columns]
      exact List.mem_singleton_self _
  | refused _ reason =>
      rw [Step.run_bind_of_error ran]
      refine .refused fun shaped => ?_
      obtain ⟨infeasible, contradicts⟩ := reason shaped
      exact ⟨infeasible, fun x meets holds => contradicts x (List.forall_mem_cons.2
        ⟨fun _ => (Posed.met_of_unmoved rfl x).2 holds, meets⟩)⟩

end Simplex

end SoftSimplex
