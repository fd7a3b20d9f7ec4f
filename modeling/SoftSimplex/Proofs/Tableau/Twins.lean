import SoftSimplex.Proofs.Tableau.Constants
import SoftSimplex.Proofs.Step.Together

/-!
Tableaus that differ in what awaits repair.

Nothing but the dual method looks at which rows await repair (`Twin`). It takes the first row that is
negative, and so entries for rows that are not, or not any more, have no influence: where all negative rows
are recorded, twins are repaired by the same pivots (`Twin.together_repair`).
-/

namespace SoftSimplex.Tableau

variable {t t' : Tableau Rat} {column key entry exit objective c : Column} {row : Row Rat}

/-- Two tableaus differ in what awaits repair, if at all. -/
def Twin (t t' : Tableau Rat) : Prop := ∃ rest, t' = t.awaiting rest

namespace Twin

theorem foldl {β : Type} {f : Tableau Rat → β → Tableau Rat} (twin : t.Twin t')
    (each : ∀ b {t t' : Tableau Rat}, t.Twin t' → (f t b).Twin (f t' b)) (l : List β) :
    (l.foldl f t).Twin (l.foldl f t') := by
  induction l generalizing t t' with
  | nil => exact twin
  | cons b rest ih => exact ih (each b twin)

section

variable (twin : t.Twin t')
include twin

theorem rows_eq : t'.rows = t.rows := by
  obtain ⟨rest, rfl⟩ := twin
  rfl

theorem exact (start : t.Exact) : t'.Exact := by
  obtain ⟨rest, rfl⟩ := twin
  exact start.awaiting rest

theorem awaiting (rest rest' : Sorted.Set Column) : (t.awaiting rest).Twin (t'.awaiting rest') := by
  obtain ⟨-, rfl⟩ := twin
  exact ⟨rest', rfl⟩

theorem basisBound_eq : t'.basisBound = t.basisBound := by
  obtain ⟨rest, rfl⟩ := twin
  rfl

/-! ### Pivots -/

theorem link (column key : Column) : (t.link column key).Twin (t'.link column key) := by
  obtain ⟨rest, rfl⟩ := twin
  exact ⟨rest, rfl⟩

theorem unlink (column key : Column) : (t.unlink column key).Twin (t'.unlink column key) := by
  obtain ⟨rest, rfl⟩ := twin
  refine ⟨rest, ?_⟩
  rw [Tableau.unlink, Tableau.unlink, index_awaiting]
  split <;> rfl

theorem markBasic (column : Column) : (t.markBasic column).Twin (t'.markBasic column) := by
  obtain ⟨rest, rfl⟩ := twin
  cases column <;> exact ⟨rest, rfl⟩

theorem unmarkBasic (column : Column) : (t.unmarkBasic column).Twin (t'.unmarkBasic column) := by
  obtain ⟨rest, rfl⟩ := twin
  cases column <;> exact ⟨rest, rfl⟩

theorem markParametric (column : Column) :
    (t.markParametric column).Twin (t'.markParametric column) := by
  obtain ⟨rest, rfl⟩ := twin
  cases column <;> exact ⟨rest, rfl⟩

theorem unmarkParametric (column : Column) :
    (t.unmarkParametric column).Twin (t'.unmarkParametric column) := by
  obtain ⟨rest, rfl⟩ := twin
  cases column <;> exact ⟨rest, rfl⟩

theorem dropTerm (key column : Column) : (t.dropTerm key column).Twin (t'.dropTerm key column) := by
  obtain ⟨rest, rfl⟩ := twin
  refine ⟨rest, ?_⟩
  rw [Tableau.dropTerm, Tableau.dropTerm, rows_awaiting]
  split <;> rfl

theorem setTerm (key column : Column) (coefficient : Rat) :
    (t.setTerm key column coefficient).Twin (t'.setTerm key column coefficient) := by
  obtain ⟨rest, rfl⟩ := twin
  refine ⟨rest, ?_⟩
  rw [Tableau.setTerm, Tableau.setTerm, rows_awaiting]
  split <;> rfl

theorem markIfRestricted (key : Column) (constant : Rat) :
    (t.markIfRestricted key constant).Twin (t'.markIfRestricted key constant) := by
  obtain ⟨rest, rfl⟩ := twin
  unfold Tableau.markIfRestricted markIfNegative
  split
  · exact ⟨if t.isNegative constant then rest.insert key else rest, by
      show (if t.isNegative constant then _ else _) = _
      split <;> rfl⟩
  · exact ⟨rest, rfl⟩

theorem removeRow (column : Column) : (t.removeRow column).Twin (t'.removeRow column) := by
  have start : ({ t with rows := t.rows.erase column } : Tableau Rat).Twin
      { t' with rows := t'.rows.erase column } := by
    obtain ⟨rest, rfl⟩ := twin
    exact ⟨rest, rfl⟩
  unfold Tableau.removeRow
  rw [twin.rows_eq] at start ⊢
  cases t.rows.get? column with
  | none => exact (twin.awaiting _ _).unmarkBasic column
  | some row =>
      have unindexed := foldl start (fun c _ _ twin => twin.unlink c column) row.terms.keys
      exact (unindexed.awaiting _ _).unmarkBasic column

theorem insertRow (column : Column) (row : Row Rat) :
    (t.insertRow column row).Twin (t'.insertRow column row) := by
  refine (foldl ?_ (fun c _ _ twin => (twin.link c column).markParametric c) _).markBasic column
  obtain ⟨rest, rfl⟩ := twin
  exact ⟨rest, rfl⟩

theorem substituteTerm (key : Column) (multiplier : Rat) (column : Column) (coefficient : Rat) :
    (t.substituteTerm key multiplier column coefficient).Twin
      (t'.substituteTerm key multiplier column coefficient) := by
  have same : t'.term? key column = t.term? key column := by rw [term?, twin.rows_eq, term?]
  have near (value : Rat) : t'.nearZero value = t.nearZero value := by
    obtain ⟨rest, rfl⟩ := twin
    rfl
  unfold Tableau.substituteTerm
  rw [same]
  split
  · exact (twin.setTerm key column _).link column key
  · dsimp only
    rw [near]
    split
    · exact (twin.dropTerm key column).unlink column key
    · exact twin.setTerm key column _

theorem substituteRow (column : Column) (solved : Row Rat) (key : Column) :
    (substituteRow column solved t key).Twin (substituteRow column solved t' key) := by
  unfold Tableau.substituteRow
  rw [twin.rows_eq]
  split
  · exact twin
  · refine (foldl ?_ (fun term _ _ twin => twin.substituteTerm key _ term.1 term.2) _).markIfRestricted
      key _
    obtain ⟨rest, rfl⟩ := twin
    exact ⟨rest, rfl⟩

theorem substituteOut (column : Column) (solved : Row Rat) :
    (t.substituteOut column solved).Twin (t'.substituteOut column solved) := by
  have same : t'.rowsWith column = t.rowsWith column := by
    obtain ⟨rest, rfl⟩ := twin
    rfl
  have enter {u u' : Tableau Rat} (twin : u.Twin u') : (u.enterBasis column).Twin (u'.enterBasis column) := by
    obtain ⟨rest, twin⟩ := (twin.markBasic column).unmarkParametric column
    exact ⟨rest, by rw [enterBasis, twin]; rfl⟩
  rw [Tableau.substituteOut, Tableau.substituteOut, same]
  exact enter (foldl twin (fun key _ _ twin => twin.substituteRow column solved key) _)

theorem pivoted (entry exit : Column) (row : Row Rat) :
    (t.pivoted entry exit row).Twin (t'.pivoted entry exit row) :=
  ((twin.removeRow exit).substituteOut entry _).insertRow entry _

/-! ### Repairs -/

theorem together_snapshot (milestone : Milestone) :
    Step.Together Twin (snapshot milestone t) (snapshot milestone t') := by
  rw [snapshot_eq, snapshot_eq]
  exact ⟨rfl, rfl, twin⟩

end

end Twin

/-- Twins whose negative rows are recorded. -/
structure Matched (t t' : Tableau Rat) : Prop where
  twin : t.Twin t'
  exact : t.Exact
  tracked : t.Tracked
  tracked' : t'.Tracked

namespace Matched

/-- A turn in the first negative row leaves the others recorded. -/
theorem together_pivot {goal : Row Rat} {rest rest' : Sorted.Set Column} (matched : t.Matched t')
    (taken : t.Taken exit row rest) (taken' : t'.Taken exit row rest')
    (cheapest : Cheapest goal row entry) : Step.Together Matched
      (pivot entry exit (t.awaiting rest)) (pivot entry exit (t'.awaiting rest')) := by
  have exact := matched.exact.awaiting rest
  have exact' := matched.twin.exact matched.exact
  have pivotal := (taken.pivotal cheapest).awaiting rest
  have pivotal' := (taken'.pivotal cheapest).awaiting rest'
  rw [exact.pivot_eq pivotal, (exact'.awaiting rest').pivot_eq pivotal']
  exact ⟨rfl, rfl, (matched.twin.awaiting rest rest').pivoted entry exit row, exact.pivoted pivotal,
    taken.tracked cheapest matched.exact, taken'.tracked cheapest exact'⟩

/-- The dual method repairs both by the same pivots, and comes to the same end. -/
theorem together_repairWithin (matched : t.Matched t') (objective : Column) (rounds : ℕ) :
    Step.Together Twin (repairWithin objective rounds t) (repairWithin objective rounds t') := by
  induction rounds generalizing t t' with
  | zero => exact .fail .unfinished matched.twin
  | succ rounds ih =>
      obtain ⟨twin, exact, tracked, tracked'⟩ := matched
      have exact' := twin.exact exact
      rcases exact.nextViolated_cases tracked with
        ⟨rest, next, nonneg⟩ | ⟨exit, row, rest, next, taken⟩ <;>
      rcases exact'.nextViolated_cases tracked' with
        ⟨rest', next', nonneg'⟩ | ⟨exit', row', rest', next', taken'⟩
      · rw [repairWithin, Step.bind_get_apply, next, Step.bind_get_apply, next']
        exact .pure () (twin.awaiting rest rest')
      · have found := taken'.found
        rw [twin.rows_eq] at found
        exact absurd (nonneg exit' row' found taken'.restricted) (not_le.2 taken'.negative)
      · exact absurd (nonneg' exit row (twin.rows_eq ▸ taken.found) taken.restricted)
          (not_le.2 taken.negative)
      · obtain ⟨rfl, rfl⟩ := (taken.toViolated.of_rows_eq twin.rows_eq.symm).unique taken'.toViolated
        have tolerant : (t.awaiting rest).tolerance.isNone = false := by
          rw [(exact.awaiting rest).exact]
          rfl
        have tolerant' : (t'.awaiting rest').tolerance.isNone = false := by
          rw [(exact'.awaiting rest').exact]
          rfl
        simp only [repairWithin, Step.bind_get_apply, next, next', Step.bind_set_apply, tolerant,
          tolerant', Bool.false_eq_true, if_false, rows_awaiting, twin.rows_eq, taken.found,
          Step.bind_ofOption_some_apply]
        have twin' := twin.awaiting rest rest'
        cases stored : t.rows.get? objective with
        | none => exact .fail (.missing objective) twin'
        | some goal =>
            obtain ⟨costs, computed, cases⟩ := (exact.awaiting rest).entryCosts_cases goal row
            have computed' : (t'.awaiting rest').entryCosts goal row = .ok costs := by
              obtain ⟨-, rfl⟩ := twin
              exact computed
            simp only [Step.bind_ofOption_some_apply, computed, computed', Step.bind_ofExcept_ok_apply]
            rcases cases with ⟨least, -⟩ | ⟨entry, cost, least, cheapest⟩
            · rw [least]
              exact (twin'.together_snapshot .dualFailed).bind (fun _ _ => id) fun _ _ _ twin =>
                .fail .dualFailed twin
            · rw [least]
              exact (together_pivot ⟨twin, exact, tracked, tracked'⟩ taken taken' cheapest).bind
                (fun _ _ => Matched.twin) fun _ _ _ matched => ih matched

theorem together_repair (matched : t.Matched t') (objective : Column) :
    Step.Together Twin (repair objective t) (repair objective t') := by
  rw [repair, Step.bind_get_apply, Step.bind_get_apply, matched.twin.basisBound_eq]
  exact matched.together_repairWithin objective t.basisBound

end Matched

end SoftSimplex.Tableau
