import Mathlib.Logic.Relation
import SoftSimplex.Proofs.Column.Kinds
import SoftSimplex.Proofs.Tableau.Adjustment
import SoftSimplex.Tableau.Pivot

/-!
What a pivot does.

A pivot answers whenever the leaving row mentions the entering column (`run_pivot`). It changes the
basis by one column and keeps the assignments that hold (`Coupled.holds_pivoted`), so the new basic
solution lies on the ray along which the entering column grows (`Exact.basicSolution_pivoted`).
Both simplex methods make turns: pivots between pivotable columns (`Turns`).
-/

namespace SoftSimplex

/-- A row that is solved again mentions what it mentioned, and the leaving column. -/
theorem Row.contains_pivoted {row : Row Rat} {entry exit c : Column} :
    (row.pivoted entry exit).terms.contains c = true ↔
      c = exit ∨ (c ≠ entry ∧ row.terms.contains c = true) := by
  rw [Sorted.Map.contains, Row.get?_pivoted]
  by_cases same : exit = c
  · simp [same]
  · rw [if_neg same, Row.get?_solvedFor]
    by_cases isEntry : entry = c
    · simp [isEntry, Ne.symm same]
    · rw [if_neg isEntry, Option.isSome_map]
      simp [Ne.symm same, Ne.symm isEntry, Sorted.Map.contains]

namespace Tableau

variable {t : Tableau Rat} {entry exit key c : Column} {row other : Row Rat} {σ : Column → Rat}

/-- The tableau after a pivot in a row. -/
def pivoted (t : Tableau Rat) (entry exit : Column) (row : Row Rat) : Tableau Rat :=
  (t.removeRow exit).introduce entry (row.pivoted entry exit)

/-- A pivot can be made: the leaving column is basic and no objective, and its row mentions the
entering one. -/
structure Pivotal (t : Tableau Rat) (entry exit : Column) (row : Row Rat) : Prop where
  found : t.rows.get? exit = some row
  mentioned : row.terms.contains entry = true
  plain : exit.isObjective = false

theorem Pivotal.mentions (pivotal : t.Pivotal entry exit row) : t.Mentions exit entry :=
  mentions_iff.2 ⟨row, pivotal.found, pivotal.mentioned⟩

theorem Pivotal.basic (pivotal : t.Pivotal entry exit row) : (t.rows.get? exit).isSome := by
  rw [pivotal.found]
  rfl

/-- A pivot on a coefficient that is not zero answers, and reports itself. -/
theorem pivot_eq_of_found {e k : Rat} (found : t.rows.get? exit = some row)
    (present : row.terms.get? entry = some k) (tolerance : t.tolerance = some e) (nonzero : k ≠ 0) :
    pivot entry exit t = ⟨.ok (), t.pivoted entry exit row, [.pivoting entry exit]⟩ := by
  have solve := Row.run_solveFor present nonzero
  have result : (Row.solveFor entry row).result = .ok (1 / k) := (Prod.mk.inj solve).1
  have state : (Row.solveFor entry row).state = row.solvedFor entry := (Prod.mk.inj solve).2
  have definition : ({ row.solvedFor entry with
      terms := (row.solvedFor entry).terms.insert exit (1 / k) } : Row Rat) =
      row.pivoted entry exit := by
    rw [Row.pivoted, Row.coefficient_of_get? present]
  have tolerant : (t.removeRow exit).tolerance.isSome = true := by
    rw [tolerance_removeRow, tolerance]
    rfl
  have substituted := substitute_eq Scalar.isNumber_rat tolerant entry (row.pivoted entry exit)
  simp only [pivot, bind, Step.bind, Step.report, Step.get, Step.set, found, Step.ofOption,
    Step.pure, result, Step.ofExcept, state, definition, substituted, Step.modify]
  rfl

theorem Pivotal.pivot_eq {e : Rat} (pivotal : t.Pivotal entry exit row)
    (tolerance : t.tolerance = some e) (nonzero : row.coefficient entry ≠ 0) :
    pivot entry exit t = ⟨.ok (), t.pivoted entry exit row, [.pivoting entry exit]⟩ := by
  obtain ⟨k, present⟩ := Sorted.Map.contains_iff.1 pivotal.mentioned
  rw [Row.coefficient_of_get? present] at nonzero
  exact pivot_eq_of_found pivotal.found present tolerance nonzero

namespace Aligned

variable {e : Rat} (aligned : t.Aligned) (tolerance : t.tolerance = some e)
include aligned tolerance

theorem get?_pivoted (entry exit : Column) (row : Row Rat) (key : Column) :
    (t.pivoted entry exit row).rows.get? key =
      if entry = key then some (row.pivoted entry exit)
      else if exit = key then none
      else (t.rows.get? key).map fun other => other.substituted e entry (row.pivoted entry exit) := by
  have removed := (tolerance_removeRow t exit).trans tolerance
  rw [Tableau.pivoted, (aligned.removeRow exit).get?_introduce removed, get?_removeRow]
  split
  · rfl
  · split <;> rfl

/-- The rows that await repair after a pivot. -/
theorem mem_infeasible_pivoted (entry exit : Column) (row : Row Rat) (key : Column) :
    key ∈ (t.pivoted entry exit row).infeasible ↔
      (key ≠ exit ∧ ∃ other, t.rows.get? key = some other ∧ other.terms.contains entry = true ∧
        Violates e key (other.substituted e entry (row.pivoted entry exit))) ∨
      (key ≠ exit ∧ key ∈ t.infeasible) := by
  have removed := (tolerance_removeRow t exit).trans tolerance
  rw [Tableau.pivoted, (aligned.removeRow exit).mem_infeasible_introduce removed,
    infeasible_removeRow, Sorted.Set.mem_erase, get?_removeRow]
  by_cases same : exit = key
  · simp [same]
  · simp [same, Ne.symm same]

end Aligned

namespace Coupled

variable (coupled : t.Coupled) (exact : t.tolerance = some 0) (found : t.rows.get? exit = some row)
  (mentioned : row.terms.contains entry = true)
include coupled found mentioned

theorem entry_outside : t.rows.get? entry = none :=
  coupled.apart exit entry (mentions_iff.2 ⟨row, found, mentioned⟩)

theorem entry_ne_exit : entry ≠ exit := by
  rintro rfl
  have outside := coupled.entry_outside found mentioned
  rw [found] at outside
  cases outside

omit mentioned in
theorem exit_absent : row.terms.get? exit = none :=
  coupled.not_contains found (by rw [found]; rfl)

theorem entry_unsolved : (row.pivoted entry exit).terms.get? entry = none := by
  rw [Row.get?_pivoted, if_neg (coupled.entry_ne_exit found mentioned).symm, Row.get?_solvedFor,
    if_pos rfl]

include exact

omit found mentioned in
/-- A row after a pivot is the row that was solved again, or a row in which the entering column was
replaced. -/
theorem cases_of_pivoted (found' : (t.pivoted entry exit row).rows.get? key = some other) :
    (key = entry ∧ other = row.pivoted entry exit) ∨
      (key ≠ entry ∧ key ≠ exit ∧ ∃ before, t.rows.get? key = some before ∧
        other = before.substituted 0 entry (row.pivoted entry exit)) := by
  rw [coupled.aligned.get?_pivoted exact] at found'
  split at found'
  · next same => exact .inl ⟨same.symm, (Option.some.inj found').symm⟩
  · next notEntry =>
      split at found'
      · cases found'
      · next notExit =>
          obtain ⟨before, stored, rfl⟩ := Option.map_eq_some_iff.1 found'
          exact .inr ⟨Ne.symm notEntry, Ne.symm notExit, before, stored, rfl⟩

/-- The assignments that hold are the same before and after a pivot. -/
theorem holds_pivoted : (t.pivoted entry exit row).Holds σ ↔ t.Holds σ := by
  have rows := coupled.aligned.get?_pivoted exact entry exit row
  have unsolved := coupled.entry_unsolved found mentioned
  have zero := Row.coefficient_of_get?_none (coupled.exit_absent found)
  have nonzero := coupled.coefficient_ne_zero found mentioned
  have value : (row.pivoted entry exit).eval σ =
      σ entry - (row.eval σ - σ exit) / row.coefficient entry := Row.eval_pivoted nonzero zero σ
  -- The new row says of the entering column what the old row said of the leaving one.
  have turned : σ entry = (row.pivoted entry exit).eval σ ↔ σ exit = row.eval σ := by
    rw [value]
    constructor
    · intro own
      field_simp at own
      linarith
    · intro own
      rw [own]
      ring
  constructor
  · intro holds
    have own : σ entry = (row.pivoted entry exit).eval σ :=
      holds entry _ (by rw [rows, if_pos rfl])
    intro key before stored
    by_cases isExit : exit = key
    · subst isExit
      rw [found] at stored
      rw [← Option.some.inj stored]
      exact turned.1 own
    · have isEntry : entry ≠ key := by
        rintro rfl
        rw [coupled.entry_outside found mentioned] at stored
        cases stored
      have after := holds key (before.substituted 0 entry (row.pivoted entry exit))
        (by rw [rows, if_neg isEntry, if_neg isExit, stored, Option.map_some])
      rw [after, Row.eval_substituted before unsolved, ← own, sub_self, mul_zero, add_zero]
  · intro holds key after stored
    have own := turned.2 (holds exit row found)
    rcases coupled.cases_of_pivoted exact stored with
      ⟨rfl, rfl⟩ | ⟨-, -, before, stored', rfl⟩
    · exact own
    · rw [Row.eval_substituted before unsolved, ← own, sub_self, mul_zero, add_zero]
      exact holds key before stored'

end Coupled

namespace WellFormed

variable (wf : t.WellFormed) (pivotal : t.Pivotal entry exit row)
include wf pivotal

theorem entry_not_basic : t.rows.get? entry = none :=
  wf.not_basic pivotal.mentions

theorem entry_ne_exit : entry ≠ exit := wf.coupled.entry_ne_exit pivotal.found pivotal.mentioned

theorem entry_coefficient : row.coefficient entry ≠ 0 :=
  wf.coefficient_ne_zero pivotal.found pivotal.mentioned

theorem definable : (t.removeRow exit).Definable entry (row.pivoted entry exit) where
  absent := by
    rw [get?_removeRow]
    split
    · rfl
    · exact wf.entry_not_basic pivotal
  nonzero := Row.get?_pivoted_ne_zero (wf.entry_coefficient pivotal)
    (wf.coupled.stored_ne_zero pivotal.found) exit
  apart := wf.coupled.entry_unsolved pivotal.found pivotal.mentioned
  noObjective c present := by
    rcases Row.contains_pivoted.1 present with rfl | ⟨-, inRow⟩
    · exact pivotal.plain
    · exact wf.noObjective exit c (mentions_iff.2 ⟨row, pivotal.found, inRow⟩)
  nonbasic c present := by
    rw [get?_removeRow]
    split
    · rfl
    · next different =>
        rcases Row.contains_pivoted.1 present with rfl | ⟨-, inRow⟩
        · exact absurd rfl different
        · exact wf.not_basic (mentions_iff.2 ⟨row, pivotal.found, inRow⟩)

/-- A pivot that can be made answers, and reports itself. -/
theorem pivot_eq :
    pivot entry exit t = ⟨.ok (), t.pivoted entry exit row, [.pivoting entry exit]⟩ := by
  obtain ⟨e, tolerance, -⟩ := wf.tolerant
  exact pivotal.pivot_eq tolerance (wf.entry_coefficient pivotal)

theorem run_pivot : (pivot entry exit).run t = (.ok (), t.pivoted entry exit row) := by
  rw [Step.run, wf.pivot_eq pivotal]

/-! ### The tableau after a pivot -/

theorem pivoted : (t.pivoted entry exit row).WellFormed := by
  obtain ⟨e, tolerance, -⟩ := (wf.removeRow exit).tolerant
  exact (wf.removeRow exit).introduce tolerance (wf.definable pivotal)

omit pivotal in
theorem get?_pivoted {e : Rat} (tolerance : t.tolerance = some e) (entry exit : Column)
    (row : Row Rat) (key : Column) :
    (t.pivoted entry exit row).rows.get? key =
      if entry = key then some (row.pivoted entry exit)
      else if exit = key then none
      else (t.rows.get? key).map fun other => other.substituted e entry (row.pivoted entry exit) :=
  wf.aligned.get?_pivoted tolerance entry exit row key

omit pivotal in
theorem tolerance_pivoted (entry exit : Column) (row : Row Rat) :
    (t.pivoted entry exit row).tolerance = t.tolerance := by
  obtain ⟨e, tolerance, -⟩ := (wf.removeRow exit).tolerant
  rw [Tableau.pivoted, tolerance_introduce (wf.removeRow exit) tolerance, tolerance_removeRow]

omit pivotal in
theorem basic_pivoted (entry exit : Column) (row : Row Rat) (key : Column) :
    ((t.pivoted entry exit row).rows.get? key).isSome ↔
      key = entry ∨ (key ≠ exit ∧ (t.rows.get? key).isSome) := by
  obtain ⟨e, tolerance, -⟩ := wf.tolerant
  rw [wf.get?_pivoted tolerance]
  by_cases isEntry : entry = key
  · simp [isEntry]
  · by_cases isExit : exit = key
    · simp [isEntry, isExit, Ne.symm isEntry]
    · simp [isEntry, isExit, Ne.symm isEntry, Ne.symm isExit]

/-- A pivot makes one column known that leaves the basis, and forgets the other. -/
theorem indexed_pivoted (c : Column) :
    ((t.pivoted entry exit row).index.get? c).isSome ↔
      c = exit ∨ (c ≠ entry ∧ (t.index.get? c).isSome) := by
  obtain ⟨e, tolerance, -⟩ := (wf.removeRow exit).tolerant
  have definable := wf.definable pivotal
  constructor
  · intro present
    obtain ⟨away, inRow | before⟩ :=
      indexed_of_indexed_introduce (wf.removeRow exit) tolerance definable.apart present
    · rcases Row.contains_pivoted.1 inRow with rfl | ⟨-, mentioned⟩
      · exact .inl rfl
      · exact .inr ⟨away, indexed_of_lists
          ((wf.listed exit c).2 (mentions_iff.2 ⟨row, pivotal.found, mentioned⟩))⟩
    · exact .inr ⟨away, indexed_removeRow.1 before⟩
  · rintro (rfl | ⟨away, before⟩)
    · exact indexed_insertRow.2 (.inl (Row.contains_pivoted.2 (.inl rfl)))
    · exact indexed_introduce_of_indexed (wf.removeRow exit) tolerance _ away
        (indexed_removeRow.2 before)

/-- What is mentioned after a pivot. -/
theorem mentions_of_mentions_pivoted (mentioned : (t.pivoted entry exit row).Mentions key c) :
    (key = entry ∧ (c = exit ∨ t.Mentions exit c)) ∨
      (key ≠ entry ∧ key ≠ exit ∧ (t.Mentions key c ∨
        (t.Mentions key entry ∧ (c = exit ∨ t.Mentions exit c)))) := by
  have inExit : (row.pivoted entry exit).terms.contains c = true → c = exit ∨ t.Mentions exit c :=
    fun present => (Row.contains_pivoted.1 present).imp_right fun inRow =>
      mentions_iff.2 ⟨row, pivotal.found, inRow.2⟩
  rcases (wf.removeRow exit).mentions_of_mentions_introduce (wf.definable pivotal).apart
    mentioned with ⟨same, inSolved⟩ | ⟨different, kept | ⟨touched, inSolved⟩⟩
  · exact .inl ⟨same, inExit inSolved⟩
  · obtain ⟨away, mentioned⟩ := mentions_removeRow.1 kept
    exact .inr ⟨different, away, .inl mentioned⟩
  · obtain ⟨away, mentioned⟩ := mentions_removeRow.1 touched
    exact .inr ⟨different, away, .inr ⟨mentioned, inExit inSolved⟩⟩

end WellFormed

namespace Exact

variable (exact : t.Exact) (pivotal : t.Pivotal entry exit row)
include exact pivotal

theorem pivoted : (t.pivoted entry exit row).Exact :=
  (exact.removeRow exit).introduce (exact.definable pivotal)

omit pivotal in
theorem get?_pivoted (entry exit : Column) (row : Row Rat) (key : Column) :
    (t.pivoted entry exit row).rows.get? key =
      if entry = key then some (row.pivoted entry exit)
      else if exit = key then none
      else (t.rows.get? key).map fun other => other.substituted 0 entry (row.pivoted entry exit) := by
  exact exact.toWellFormed.get?_pivoted exact.exact entry exit row key

omit pivotal in
theorem get?_pivoted_of_ne (row : Row Rat) (entryNe : key ≠ entry) (exitNe : key ≠ exit) :
    (t.pivoted entry exit row).rows.get? key =
      (t.rows.get? key).map fun other => other.substituted 0 entry (row.pivoted entry exit) := by
  rw [exact.get?_pivoted, if_neg (Ne.symm entryNe), if_neg (Ne.symm exitNe)]

theorem exit_not_basic_pivoted : (t.pivoted entry exit row).rows.get? exit = none := by
  rw [exact.get?_pivoted, if_neg (exact.entry_ne_exit pivotal), if_pos rfl]

/-- The assignments that hold are the same before and after a pivot. -/
theorem holds_pivoted : (t.pivoted entry exit row).Holds σ ↔ t.Holds σ :=
  exact.coupled.holds_pivoted exact.exact pivotal.found pivotal.mentioned

omit pivotal in
theorem mem_infeasible_pivoted (entry exit : Column) (row : Row Rat) (key : Column) :
    key ∈ (t.pivoted entry exit row).infeasible ↔
      (key ≠ exit ∧ ∃ other, t.rows.get? key = some other ∧ other.terms.contains entry = true ∧
        Violates 0 key (other.substituted 0 entry (row.pivoted entry exit))) ∨
      (key ≠ exit ∧ key ∈ t.infeasible) :=
  exact.aligned.mem_infeasible_pivoted exact.exact entry exit row key

omit pivotal in
theorem recorded_pivoted (entry exit : Column) (row : Row Rat) (recorded : t.Recorded) :
    (t.pivoted entry exit row).Recorded := by
  intro key member
  rcases (exact.mem_infeasible_pivoted entry exit row key).1 member with
    ⟨-, _, -, -, violates⟩ | ⟨-, before⟩
  · exact violates.1
  · exact recorded key before

end Exact

/-- A pivot moves along the ray until the leaving column is zero. -/
theorem Exact.basicSolution_pivoted (exact : t.Exact) (pivotal : t.Pivotal entry exit row) :
    (t.pivoted entry exit row).basicSolution =
      t.ray entry (-row.constant / row.coefficient entry) := by
  have nonzero := exact.entry_coefficient pivotal
  refine (Holds.eq_basicSolution ((exact.holds_pivoted pivotal).2 (exact.holds_ray entry _))
    (exact.pivoted pivotal).toWellFormed fun c absent => ?_).symm
  have outside : ¬(c = entry ∨ (c ≠ exit ∧ (t.rows.get? c).isSome)) := by
    rw [← exact.basic_pivoted entry exit row c, absent]
    simp
  by_cases isExit : c = exit
  · rw [isExit, ray_of_basic pivotal.found]
    field_simp
    ring
  · refine ray_of_not_basic ?_ (fun same => outside (.inl same)) _
    rw [← Option.not_isSome_iff_eq_none]
    exact fun basic => outside (.inr ⟨isExit, basic⟩)

/-! ### Turns -/

/-- A pivot between pivotable columns; what awaits repair may be changed before. -/
def Turn (t t' : Tableau Rat) : Prop :=
  ∃ entry exit row rest, t.Pivotal entry exit row ∧ entry.isPivotable = true ∧
    exit.isPivotable = true ∧ (t.Recorded → (t.awaiting rest).Recorded) ∧
    t' = (t.awaiting rest).pivoted entry exit row

theorem Pivotal.awaiting (pivotal : t.Pivotal entry exit row) (rest : Sorted.Set Column) :
    (t.awaiting rest).Pivotal entry exit row :=
  ⟨pivotal.found, pivotal.mentioned, pivotal.plain⟩

/-- Any number of pivots between pivotable columns. -/
abbrev Turns : Tableau Rat → Tableau Rat → Prop := Relation.ReflTransGen Turn

namespace Turns

variable {t' : Tableau Rat} (turns : t.Turns t') (start : t.Exact)
include turns start

theorem exact : t'.Exact := by
  induction turns with
  | refl => exact start
  | tail _ turn ih =>
      obtain ⟨entry, exit, row, rest, pivotal, -, -, -, rfl⟩ := turn
      exact (ih.awaiting rest).pivoted (pivotal.awaiting rest)

theorem holds (σ : Column → Rat) : t'.Holds σ ↔ t.Holds σ := by
  induction turns with
  | refl => rfl
  | tail before turn ih =>
      obtain ⟨entry, exit, row, rest, pivotal, -, -, -, rfl⟩ := turn
      rw [((Turns.exact before start).awaiting rest).holds_pivoted (pivotal.awaiting rest), ← ih]
      rfl

/-- Turns leave alone whether a column that is not pivotable is basic. -/
theorem basic_eq (fixed : c.isPivotable = false) :
    (t'.rows.get? c).isSome = (t.rows.get? c).isSome := by
  induction turns with
  | refl => rfl
  | tail before turn ih =>
      obtain ⟨entry, exit, row, rest, pivotal, enters, leaves, -, rfl⟩ := turn
      have entryNe : c ≠ entry := by
        rintro rfl
        rw [fixed] at enters
        cases enters
      have exitNe : c ≠ exit := by
        rintro rfl
        rw [fixed] at leaves
        cases leaves
      rw [((Turns.exact before start).awaiting rest).get?_pivoted_of_ne row entryNe exitNe,
        Option.isSome_map, rows_awaiting, ih]

theorem recorded (recorded : t.Recorded) : t'.Recorded := by
  induction turns with
  | refl => exact recorded
  | tail before turn ih =>
      obtain ⟨entry, exit, row, rest, pivotal, -, -, keeps, rfl⟩ := turn
      exact ((Turns.exact before start).awaiting rest).recorded_pivoted entry exit row (keeps ih)

end Turns

end Tableau

end SoftSimplex
