import Mathlib.Data.Finset.Dedup
import SoftSimplex.Proofs.Tableau.Pivoting

/-!
The columns that a tableau knows of.

The scope of a tableau are the columns that are basic or indexed. Pivots leave it alone, and the other
operations add or take away what they are given, so that a column outside the scope is new.
-/

namespace SoftSimplex.Tableau

variable {t : Tableau Rat} {entry exit key column c : Column} {row solved : Row Rat}

/-- The columns that are basic or indexed. -/
def scope (t : Tableau Rat) : Finset Column := t.rows.keys.toFinset ∪ t.index.keys.toFinset

theorem mem_scope : c ∈ t.scope ↔ (t.rows.get? c).isSome ∨ (t.index.get? c).isSome := by
  rw [scope, Finset.mem_union, List.mem_toFinset, List.mem_toFinset, Sorted.Map.mem_keys_iff,
    Sorted.Map.mem_keys_iff]

/-- What is mentioned is in the scope. -/
theorem WellFormed.mem_scope_of_mentions (wf : t.WellFormed) (mentioned : t.Mentions key c) :
    c ∈ t.scope :=
  mem_scope.2 (.inr (indexed_of_lists ((wf.listed key c).2 mentioned)))

theorem not_basic_of_not_mem_scope (new : c ∉ t.scope) : t.rows.get? c = none := by
  rw [← Option.not_isSome_iff_eq_none]
  exact fun basic => new (mem_scope.2 (.inl basic))

theorem not_indexed_of_not_mem_scope (new : c ∉ t.scope) : t.index.get? c = none := by
  rw [← Option.not_isSome_iff_eq_none]
  exact fun indexed => new (mem_scope.2 (.inr indexed))

/-- A tableau says nothing about columns outside its scope. -/
theorem WellFormed.holds_congr (wf : t.WellFormed) {σ τ : Column → Rat}
    (same : ∀ c ∈ t.scope, σ c = τ c) : t.Holds σ ↔ t.Holds τ := by
  refine forall_congr' fun key => forall_congr' fun row => imp_congr_right fun found => ?_
  rw [same key (mem_scope.2 (.inl (by rw [found]; rfl)))]
  have values : row.eval σ = row.eval τ := Row.eval_congr fun c nonzero =>
    same c (wf.mem_scope_of_mentions (mentions_of_coefficient found nonzero))
  rw [values]

theorem WellFormed.holds_update_of_new (wf : t.WellFormed) (new : c ∉ t.scope)
    (σ : Column → Rat) (x : Rat) : t.Holds (Function.update σ c x) ↔ t.Holds σ :=
  wf.holds_congr fun d known => Function.update_of_ne (by rintro rfl; exact new known) x σ

/-! ### Rows and columns that come and go -/

theorem mem_scope_insertRow :
    c ∈ (t.insertRow key row).scope ↔
      c = key ∨ row.terms.contains c = true ∨ c ∈ t.scope := by
  rw [mem_scope, mem_scope, get?_insertRow, indexed_insertRow]
  by_cases same : key = c
  · simp [same]
  · rw [if_neg same]
    simp only [Ne.symm same, false_or]
    exact or_left_comm

theorem WellFormed.mem_scope_removeRow (wf : t.WellFormed) (basic : (t.rows.get? key).isSome) :
    c ∈ (t.removeRow key).scope ↔ c ≠ key ∧ c ∈ t.scope := by
  rw [mem_scope, mem_scope, get?_removeRow, indexed_removeRow]
  by_cases same : key = c
  · subst same
    simp [wf.separate key basic]
  · simp [same, Ne.symm same]

theorem mem_scope_removeRow_of_absent (absent : t.rows.get? key = none) :
    c ∈ (t.removeRow key).scope ↔ c ∈ t.scope := by
  rw [mem_scope, mem_scope, get?_removeRow, indexed_removeRow]
  by_cases same : key = c
  · simp [← same, absent]
  · simp [same]

theorem WellFormed.mem_scope_removeColumn (wf : t.WellFormed)
    (outside : t.rows.get? column = none) :
    c ∈ (t.removeColumn column).scope ↔ c ≠ column ∧ c ∈ t.scope := by
  rw [mem_scope, mem_scope, get?_removeColumn wf, Option.isSome_map, index_removeColumn,
    Sorted.Map.get?_erase]
  by_cases same : column = c
  · subst same
    simp [outside]
  · simp [same, Ne.symm same]

theorem WellFormed.mem_scope_introduce (wf : t.WellFormed)
    (definable : t.Definable column solved) :
    c ∈ (t.introduce column solved).scope ↔
      c = column ∨ solved.terms.contains c = true ∨ c ∈ t.scope := by
  obtain ⟨e, tolerance, -⟩ := wf.tolerant
  rw [mem_scope, mem_scope, get?_introduce wf tolerance]
  constructor
  · rintro (basic | indexed)
    · split at basic
      · next same => exact .inl same.symm
      · rw [Option.isSome_map] at basic
        exact .inr (.inr (.inl basic))
    · exact .inr ((indexed_of_indexed_introduce wf tolerance definable.apart
        indexed).2.imp_right .inr)
  · rintro (rfl | inSolved | basic | indexed)
    · simp
    · exact .inr (indexed_insertRow.2 (.inl inSolved))
    · refine .inl ?_
      split
      · rfl
      · rwa [Option.isSome_map]
    · by_cases same : c = column
      · simp [same]
      · exact .inr (indexed_introduce_of_indexed wf tolerance solved same indexed)

theorem WellFormed.mem_scope_addToObjective (wf : t.WellFormed) {objective : Column}
    (found : t.rows.get? objective = some row) (plain : column.isObjective = false) (k : Rat)
    (known : c ∈ (t.addToObjective column k objective).scope) : c = column ∨ c ∈ t.scope := by
  have apart := wf.apart_addToObjective found plain k
  rcases mem_scope.1 known with basic | indexed
  · refine .inr (mem_scope.2 (.inl ?_))
    by_cases same : c = objective
    · rw [same, found]
      rfl
    · rwa [apart.others c same] at basic
  · exact (wf.indexed_addToObjective found plain k indexed).imp_right fun before =>
      mem_scope.2 (.inr before)

theorem WellFormed.mem_addToObjective_of_mem_scope (wf : t.WellFormed) {objective : Column}
    (found : t.rows.get? objective = some row) (plain : column.isObjective = false) (k : Rat)
    (known : c ∈ t.scope) : c ∈ (t.addToObjective column k objective).scope := by
  have apart := wf.apart_addToObjective found plain k
  rcases mem_scope.1 known with basic | indexed
  · refine mem_scope.2 (.inl ?_)
    by_cases same : c = objective
    · rw [same]
      exact apart.stored
    · rwa [apart.others c same]
  · exact mem_scope.2 (.inr (apart.indexed c indexed))

/-! ### Pivots -/

theorem WellFormed.scope_pivoted (wf : t.WellFormed) (pivotal : t.Pivotal entry exit row) :
    (t.pivoted entry exit row).scope = t.scope := by
  have entryIndexed := indexed_of_lists ((wf.listed exit entry).2 pivotal.mentions)
  have exitBasic := pivotal.basic
  ext c
  rw [mem_scope, mem_scope, wf.basic_pivoted, wf.indexed_pivoted pivotal]
  by_cases isEntry : c = entry
  · simp [isEntry, entryIndexed]
  · by_cases isExit : c = exit
    · simp [isExit, exitBasic]
    · simp [isEntry, isExit]

theorem Turns.scope_eq {t' : Tableau Rat} (turns : t.Turns t') (exact : t.Exact) :
    t'.scope = t.scope := by
  induction turns with
  | refl => rfl
  | tail before turn ih =>
      obtain ⟨entry, exit, row, rest, pivotal, -, -, -, rfl⟩ := turn
      rw [((Turns.exact before exact).awaiting rest).scope_pivoted (pivotal.awaiting rest), ← ih]
      rfl

end SoftSimplex.Tableau
