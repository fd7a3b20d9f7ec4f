import SoftSimplex.Proofs.Row.Replacement
import SoftSimplex.Tableau

/-!
Tableaus whose parts fit together.

`WellFormed` is what every operation relies on: the index is the inverse of the rows, no basic column
is mentioned or indexed, no zero is stored, objectives are not mentioned, and the basic variables are
those that have a row. This module says what the small operations do to the rows and to the index
(`Lists`), and shows that storing a row (`WellFormed.insertRow`), taking one out
(`WellFormed.removeRow`) and striking a column out (`WellFormed.removeColumn`) keep tableaus well
formed. All of it holds for every tolerance.
-/

namespace SoftSimplex.Tableau

variable {t : Tableau Rat} {key column c : Column} {row : Row Rat} {e : Rat}

/-- The index names a row for a column. -/
def Lists (t : Tableau Rat) (key column : Column) : Prop :=
  key ∈ (t.index.get? column).getD ∅

/-- A row mentions a column. -/
def Mentions (t : Tableau Rat) (key column : Column) : Prop :=
  (t.term? key column).isSome

/-- The index is the inverse of the rows. -/
def Aligned (t : Tableau Rat) : Prop := ∀ key column, t.Lists key column ↔ t.Mentions key column

theorem mem_rowsWith : key ∈ t.rowsWith column ↔ t.Lists key column := Sorted.Set.mem_toList

theorem nodup_rowsWith (t : Tableau Rat) (column : Column) : (t.rowsWith column).Nodup :=
  Sorted.Map.nodup_keys _

theorem mentions_iff : t.Mentions key column ↔
    ∃ row, t.rows.get? key = some row ∧ row.terms.contains column = true := by
  unfold Mentions term? Sorted.Map.contains
  cases t.rows.get? key <;> simp

theorem mentions_iff_contains (found : t.rows.get? key = some row) :
    t.Mentions key column ↔ row.terms.contains column = true := by
  rw [Mentions, term?, found, Option.bind_some, Sorted.Map.contains]

theorem mentions_of_coefficient (found : t.rows.get? key = some row)
    (nonzero : row.coefficient column ≠ 0) : t.Mentions key column :=
  mentions_iff.2 ⟨row, found, Row.contains_of_coefficient nonzero⟩

theorem indexed_of_lists (listed : t.Lists key column) : (t.index.get? column).isSome := by
  unfold Lists at listed
  cases found : t.index.get? column with
  | none => simp [found] at listed
  | some keys => rfl

/-- The index is the inverse of the rows, no key of a row is mentioned, and no zero is stored. -/
structure Coupled (t : Tableau Rat) : Prop where
  aligned : t.Aligned
  apart : ∀ key column, t.Mentions key column → t.rows.get? column = none
  nonzero : ∀ key column, t.term? key column ≠ some 0

namespace Coupled

variable (coupled : t.Coupled) (found : t.rows.get? key = some row)
include coupled found

theorem stored_ne_zero (c : Column) : row.terms.get? c ≠ some 0 := by
  intro stored
  exact coupled.nonzero key c (by rw [term?, found]; exact stored)

/-- No row mentions the key of a row. -/
theorem not_contains (basic : (t.rows.get? column).isSome) : row.terms.get? column = none := by
  by_contra present
  have absent := coupled.apart key column
    (mentions_iff.2 ⟨row, found, Option.isSome_iff_ne_none.2 present⟩)
  rw [absent] at basic
  cases basic

theorem coefficient_ne_zero (mentioned : row.terms.contains column = true) :
    row.coefficient column ≠ 0 := by
  obtain ⟨k, present⟩ := Sorted.Map.contains_iff.1 mentioned
  rw [Row.coefficient_of_get? present]
  rintro rfl
  exact coupled.stored_ne_zero found column present

end Coupled

/-- The parts of a tableau fit together. -/
structure WellFormed (t : Tableau Rat) : Prop where
  tolerant : ∃ e, t.tolerance = some e ∧ 0 ≤ e
  /-- The index is the inverse of the rows. -/
  listed : ∀ key column, t.Lists key column ↔ t.Mentions key column
  /-- Basic columns are not indexed, and so not mentioned. -/
  separate : ∀ column, (t.rows.get? column).isSome → t.index.get? column = none
  nonzero : ∀ key column, t.term? key column ≠ some 0
  /-- Objectives are not indexed, and so not mentioned. -/
  plain : ∀ column, (t.index.get? column).isSome → column.isObjective = false
  /-- The basic variables are those that have a row. -/
  basic : ∀ v, v ∈ t.basicVariables ↔ (t.rows.get? (.external v)).isSome

namespace WellFormed

theorem aligned (wf : t.WellFormed) : t.Aligned := wf.listed

/-- What is mentioned is no objective. -/
theorem noObjective (wf : t.WellFormed) (key column : Column) (mentioned : t.Mentions key column) :
    column.isObjective = false :=
  wf.plain column (indexed_of_lists ((wf.listed key column).2 mentioned))

/-- What is mentioned is not basic. -/
theorem not_basic (wf : t.WellFormed) (mentioned : t.Mentions key column) :
    t.rows.get? column = none := by
  by_contra basic
  have indexed := indexed_of_lists ((wf.listed key column).2 mentioned)
  rw [wf.separate column (Option.isSome_iff_ne_none.2 basic)] at indexed
  cases indexed

theorem coupled (wf : t.WellFormed) : t.Coupled := ⟨wf.listed, fun _ _ => wf.not_basic, wf.nonzero⟩

theorem not_contains (wf : t.WellFormed) (found : t.rows.get? key = some row)
    (basic : (t.rows.get? column).isSome) : row.terms.get? column = none :=
  wf.coupled.not_contains found basic

theorem coefficient_of_basic (wf : t.WellFormed) (found : t.rows.get? key = some row)
    (basic : (t.rows.get? column).isSome) : row.coefficient column = 0 :=
  Row.coefficient_of_get?_none (wf.not_contains found basic)

theorem coefficient_ne_zero (wf : t.WellFormed) (found : t.rows.get? key = some row)
    (mentioned : row.terms.contains column = true) : row.coefficient column ≠ 0 :=
  wf.coupled.coefficient_ne_zero found mentioned

end WellFormed

/-! ### What the small operations change -/

theorem lists_link {key column r : Column} :
    (t.link column r).Lists key c ↔ (key = r ∧ c = column) ∨ t.Lists key c := by
  simp only [Lists, link, Sorted.Map.get?_insert]
  by_cases same : column = c
  · subst same
    simp [Sorted.Set.mem_insert]
  · simp [same, Ne.symm same]

theorem lists_unlink {key column r : Column} :
    (t.unlink column r).Lists key c ↔ t.Lists key c ∧ ¬(key = r ∧ c = column) := by
  unfold unlink Lists
  cases found : t.index.get? column with
  | none =>
      by_cases same : c = column
      · subst same
        simp [found]
      · simp [same]
  | some keys =>
      simp only [Sorted.Map.get?_insert]
      by_cases same : column = c
      · subst same
        simp [found, Sorted.Set.mem_erase, and_comm]
      · simp [same, Ne.symm same]

theorem indexed_link {column r : Column} :
    ((t.link column r).index.get? c).isSome ↔ c = column ∨ (t.index.get? c).isSome := by
  simp only [link, Sorted.Map.get?_insert]
  by_cases same : column = c
  · simp [same]
  · simp [same, Ne.symm same]

theorem indexed_unlink {column r : Column} :
    ((t.unlink column r).index.get? c).isSome ↔ (t.index.get? c).isSome := by
  unfold unlink
  cases found : t.index.get? column with
  | none => rfl
  | some keys =>
      simp only [Sorted.Map.get?_insert]
      by_cases same : column = c
      · subst same
        simp [found]
      · simp [same]

@[simp] theorem rows_unlink (t : Tableau Rat) (column r : Column) :
    (t.unlink column r).rows = t.rows := by
  unfold unlink
  split <;> rfl

@[simp] theorem basicVariables_unlink (t : Tableau Rat) (column r : Column) :
    (t.unlink column r).basicVariables = t.basicVariables := by
  unfold unlink
  split <;> rfl

@[simp] theorem parametricVariables_unlink (t : Tableau Rat) (column r : Column) :
    (t.unlink column r).parametricVariables = t.parametricVariables := by
  unfold unlink
  split <;> rfl

@[simp] theorem infeasible_unlink (t : Tableau Rat) (column r : Column) :
    (t.unlink column r).infeasible = t.infeasible := by
  unfold unlink
  split <;> rfl

@[simp] theorem rows_markBasic (t : Tableau Rat) (column : Column) :
    (t.markBasic column).rows = t.rows := by cases column <;> rfl

@[simp] theorem rows_unmarkBasic (t : Tableau Rat) (column : Column) :
    (t.unmarkBasic column).rows = t.rows := by cases column <;> rfl

@[simp] theorem rows_markParametric (t : Tableau Rat) (column : Column) :
    (t.markParametric column).rows = t.rows := by cases column <;> rfl

@[simp] theorem rows_unmarkParametric (t : Tableau Rat) (column : Column) :
    (t.unmarkParametric column).rows = t.rows := by cases column <;> rfl

@[simp] theorem index_markBasic (t : Tableau Rat) (column : Column) :
    (t.markBasic column).index = t.index := by cases column <;> rfl

@[simp] theorem index_unmarkBasic (t : Tableau Rat) (column : Column) :
    (t.unmarkBasic column).index = t.index := by cases column <;> rfl

@[simp] theorem index_markParametric (t : Tableau Rat) (column : Column) :
    (t.markParametric column).index = t.index := by cases column <;> rfl

@[simp] theorem index_unmarkParametric (t : Tableau Rat) (column : Column) :
    (t.unmarkParametric column).index = t.index := by cases column <;> rfl

@[simp] theorem tolerance_markBasic (t : Tableau Rat) (column : Column) :
    (t.markBasic column).tolerance = t.tolerance := by cases column <;> rfl

@[simp] theorem tolerance_unmarkBasic (t : Tableau Rat) (column : Column) :
    (t.unmarkBasic column).tolerance = t.tolerance := by cases column <;> rfl

@[simp] theorem tolerance_markParametric (t : Tableau Rat) (column : Column) :
    (t.markParametric column).tolerance = t.tolerance := by cases column <;> rfl

@[simp] theorem tolerance_unmarkParametric (t : Tableau Rat) (column : Column) :
    (t.unmarkParametric column).tolerance = t.tolerance := by cases column <;> rfl

@[simp] theorem infeasible_markBasic (t : Tableau Rat) (column : Column) :
    (t.markBasic column).infeasible = t.infeasible := by cases column <;> rfl

@[simp] theorem infeasible_unmarkBasic (t : Tableau Rat) (column : Column) :
    (t.unmarkBasic column).infeasible = t.infeasible := by cases column <;> rfl

@[simp] theorem infeasible_markParametric (t : Tableau Rat) (column : Column) :
    (t.markParametric column).infeasible = t.infeasible := by cases column <;> rfl

@[simp] theorem infeasible_unmarkParametric (t : Tableau Rat) (column : Column) :
    (t.unmarkParametric column).infeasible = t.infeasible := by cases column <;> rfl

@[simp] theorem basicVariables_markParametric (t : Tableau Rat) (column : Column) :
    (t.markParametric column).basicVariables = t.basicVariables := by cases column <;> rfl

@[simp] theorem basicVariables_unmarkParametric (t : Tableau Rat) (column : Column) :
    (t.unmarkParametric column).basicVariables = t.basicVariables := by cases column <;> rfl

theorem mem_basicVariables_markBasic {v : Variable} :
    v ∈ (t.markBasic column).basicVariables ↔ column = .external v ∨ v ∈ t.basicVariables := by
  cases column with
  | external w => simp [markBasic, Sorted.Set.mem_insert, eq_comm]
  | symbol s => simp [markBasic]

theorem mem_basicVariables_unmarkBasic {v : Variable} :
    v ∈ (t.unmarkBasic column).basicVariables ↔
      column ≠ .external v ∧ v ∈ t.basicVariables := by
  cases column with
  | external w => simp [unmarkBasic, Sorted.Set.mem_erase, eq_comm]
  | symbol s => simp [unmarkBasic]

theorem lists_congr {t t' : Tableau Rat} (same : t'.index = t.index) :
    t'.Lists key c ↔ t.Lists key c := by
  rw [Lists, Lists, same]

theorem mentions_congr {t t' : Tableau Rat} (same : t'.rows = t.rows) :
    t'.Mentions key c ↔ t.Mentions key c := by
  rw [Mentions, Mentions, term?, term?, same]

/-! ### Storing a row -/

/-- The index entries that storing a row adds. -/
private theorem link_all (columns : List Column) (r : Column) (t : Tableau Rat) :
    let linked := columns.foldl (fun t c => (t.link c r).markParametric c) t
    linked.rows = t.rows ∧ linked.tolerance = t.tolerance ∧ linked.infeasible = t.infeasible ∧
      linked.basicVariables = t.basicVariables ∧
      (∀ key c, linked.Lists key c ↔ (key = r ∧ c ∈ columns) ∨ t.Lists key c) ∧
      ∀ c, (linked.index.get? c).isSome ↔ c ∈ columns ∨ (t.index.get? c).isSome := by
  induction columns generalizing t with
  | nil => simp
  | cons column rest ih =>
      obtain ⟨rows, tolerance, infeasible, basics, lists, indexed⟩ :=
        ih ((t.link column r).markParametric column)
      refine ⟨rows.trans (rows_markParametric _ _), tolerance.trans (tolerance_markParametric _ _),
        infeasible.trans (infeasible_markParametric _ _),
        basics.trans (basicVariables_markParametric _ _), fun key c => ?_, fun c => ?_⟩
      · rw [List.foldl_cons, lists, lists_congr (index_markParametric _ _), lists_link,
          List.mem_cons]
        tauto
      · rw [List.foldl_cons, indexed, index_markParametric, indexed_link, List.mem_cons]
        tauto

theorem rows_insertRow (t : Tableau Rat) (key : Column) (row : Row Rat) :
    (t.insertRow key row).rows = t.rows.insert key row := by
  rw [insertRow, rows_markBasic]
  exact (link_all row.terms.keys key { t with rows := t.rows.insert key row }).1

theorem tolerance_insertRow (t : Tableau Rat) (key : Column) (row : Row Rat) :
    (t.insertRow key row).tolerance = t.tolerance := by
  rw [insertRow, tolerance_markBasic]
  exact (link_all row.terms.keys key { t with rows := t.rows.insert key row }).2.1

theorem infeasible_insertRow (t : Tableau Rat) (key : Column) (row : Row Rat) :
    (t.insertRow key row).infeasible = t.infeasible := by
  rw [insertRow, infeasible_markBasic]
  exact (link_all row.terms.keys key { t with rows := t.rows.insert key row }).2.2.1

theorem mem_basicVariables_insertRow {v : Variable} :
    v ∈ (t.insertRow key row).basicVariables ↔
      key = .external v ∨ v ∈ t.basicVariables := by
  rw [insertRow, mem_basicVariables_markBasic,
    (link_all row.terms.keys key { t with rows := t.rows.insert key row }).2.2.2.1]

theorem lists_insertRow {r : Column} :
    (t.insertRow r row).Lists key c ↔
      (key = r ∧ row.terms.contains c = true) ∨ t.Lists key c := by
  rw [insertRow, lists_congr (index_markBasic _ _),
    (link_all row.terms.keys r { t with rows := t.rows.insert r row }).2.2.2.2.1,
    Sorted.Map.mem_keys_iff_contains]
  rfl

theorem indexed_insertRow {r : Column} :
    ((t.insertRow r row).index.get? c).isSome ↔
      row.terms.contains c = true ∨ (t.index.get? c).isSome := by
  rw [insertRow, index_markBasic,
    (link_all row.terms.keys r { t with rows := t.rows.insert r row }).2.2.2.2.2,
    Sorted.Map.mem_keys_iff_contains]

theorem get?_insertRow {r : Column} :
    (t.insertRow r row).rows.get? key = if r = key then some row else t.rows.get? key := by
  rw [rows_insertRow, Sorted.Map.get?_insert]

theorem mentions_insertRow {r : Column} :
    (t.insertRow r row).Mentions key c ↔
      (key = r ∧ row.terms.contains c = true) ∨ (key ≠ r ∧ t.Mentions key c) := by
  rw [Mentions, Mentions, term?, term?, get?_insertRow]
  by_cases same : r = key
  · subst same
    simp [Sorted.Map.contains]
  · simp [same, Ne.symm same]

/-- A row can be stored under a column if it stores no zero and what it mentions is no objective and
neither basic nor that column. -/
structure Storable (t : Tableau Rat) (key : Column) (row : Row Rat) : Prop where
  absent : t.rows.get? key = none
  unindexed : t.index.get? key = none
  nonzero : ∀ column, row.terms.get? column ≠ some 0
  apart : row.terms.get? key = none
  noObjective : ∀ column, row.terms.contains column = true → column.isObjective = false
  nonbasic : ∀ column, row.terms.contains column = true → t.rows.get? column = none

theorem WellFormed.insertRow (wf : t.WellFormed) (storable : t.Storable key row) :
    (t.insertRow key row).WellFormed where
  tolerant := by rw [tolerance_insertRow]; exact wf.tolerant
  listed k column := by
    rw [lists_insertRow, mentions_insertRow, wf.listed]
    constructor
    · rintro (inRow | mentioned)
      · exact .inl inRow
      · refine .inr ⟨?_, mentioned⟩
        rintro rfl
        obtain ⟨row', found, -⟩ := mentions_iff.1 mentioned
        rw [storable.absent] at found
        cases found
    · rintro (inRow | ⟨-, mentioned⟩)
      · exact .inl inRow
      · exact .inr mentioned
  separate column basic := by
    rw [← Option.not_isSome_iff_eq_none, indexed_insertRow]
    rw [get?_insertRow] at basic
    by_cases same : key = column
    · subst same
      rintro (inRow | indexed)
      · rw [Sorted.Map.contains, storable.apart] at inRow
        cases inRow
      · rw [storable.unindexed] at indexed
        cases indexed
    · rw [if_neg same] at basic
      rintro (inRow | indexed)
      · rw [storable.nonbasic column inRow] at basic
        cases basic
      · rw [wf.separate column basic] at indexed
        cases indexed
  nonzero k column := by
    rw [term?, get?_insertRow]
    split
    · exact storable.nonzero column
    · exact wf.nonzero k column
  plain column present := by
    rcases indexed_insertRow.1 present with inRow | before
    · exact storable.noObjective column inRow
    · exact wf.plain column before
  basic v := by
    rw [mem_basicVariables_insertRow, wf.basic, get?_insertRow]
    by_cases same : key = .external v
    · simp [same]
    · simp [same]

/-! ### Taking a row out -/

/-- The index entries that taking a row out drops. -/
private theorem unlink_all (columns : List Column) (r : Column) (t : Tableau Rat) :
    let unlinked := columns.foldl (fun t c => t.unlink c r) t
    unlinked.rows = t.rows ∧ unlinked.tolerance = t.tolerance ∧
      unlinked.infeasible = t.infeasible ∧ unlinked.basicVariables = t.basicVariables ∧
      (∀ key c, unlinked.Lists key c ↔ t.Lists key c ∧ ¬(key = r ∧ c ∈ columns)) ∧
      ∀ c, (unlinked.index.get? c).isSome ↔ (t.index.get? c).isSome := by
  induction columns generalizing t with
  | nil => simp
  | cons column rest ih =>
      obtain ⟨rows, tolerance, infeasible, basics, lists, indexed⟩ := ih (t.unlink column r)
      refine ⟨by simpa using rows, ?_, by simpa using infeasible, by simpa using basics,
        fun key c => ?_, fun c => ?_⟩
      · rw [List.foldl_cons, tolerance]
        unfold unlink
        split <;> rfl
      · rw [List.foldl_cons, lists, lists_unlink, List.mem_cons]
        tauto
      · rw [List.foldl_cons, indexed, indexed_unlink]

private theorem removeRow_frame (t : Tableau Rat) (key : Column) :
    let removed := t.removeRow key
    removed.rows = t.rows.erase key ∧ removed.tolerance = t.tolerance ∧
      removed.infeasible = t.infeasible.erase key ∧
      (∀ k c, removed.Lists k c ↔ t.Lists k c ∧ ¬(k = key ∧ t.Mentions key c)) ∧
      ∀ c, (removed.index.get? c).isSome ↔ (t.index.get? c).isSome := by
  cases found : t.rows.get? key with
  | none =>
      have same : t.rows.erase key = t.rows := Sorted.Map.ext_get? fun k => by
        rw [Sorted.Map.get?_erase]
        split
        · next equal => rw [← equal, found]
        · rfl
      refine ⟨?_, ?_, ?_, fun k c => ?_, fun c => ?_⟩
      · rw [removeRow, found, rows_unmarkBasic, same]
      · rw [removeRow, found, tolerance_unmarkBasic]
      · rw [removeRow, found, infeasible_unmarkBasic]
      · rw [removeRow, found, lists_congr (index_unmarkBasic _ _)]
        simp [Mentions, term?, found, Lists]
      · rw [removeRow, found, index_unmarkBasic]
  | some row =>
      obtain ⟨rows, tolerance, infeasible, basics, lists, indexed⟩ :=
        unlink_all row.terms.keys key { t with rows := t.rows.erase key }
      refine ⟨?_, ?_, ?_, fun k c => ?_, fun c => ?_⟩
      · rw [removeRow, found, rows_unmarkBasic]
        exact rows
      · rw [removeRow, found, tolerance_unmarkBasic]
        exact tolerance
      · rw [removeRow, found, infeasible_unmarkBasic]
        dsimp only
        rw [infeasible]
      · rw [removeRow, found, lists_congr (index_unmarkBasic _ _)]
        refine (lists k c).trans ?_
        rw [Sorted.Map.mem_keys_iff_contains, Mentions, term?, found]
        rfl
      · rw [removeRow, found, index_unmarkBasic]
        exact indexed c

theorem rows_removeRow (t : Tableau Rat) (key : Column) :
    (t.removeRow key).rows = t.rows.erase key := (removeRow_frame t key).1

theorem tolerance_removeRow (t : Tableau Rat) (key : Column) :
    (t.removeRow key).tolerance = t.tolerance := (removeRow_frame t key).2.1

theorem infeasible_removeRow (t : Tableau Rat) (key : Column) :
    (t.removeRow key).infeasible = t.infeasible.erase key := (removeRow_frame t key).2.2.1

theorem lists_removeRow {k : Column} :
    (t.removeRow key).Lists k c ↔ t.Lists k c ∧ ¬(k = key ∧ t.Mentions key c) :=
  (removeRow_frame t key).2.2.2.1 k c

theorem indexed_removeRow :
    ((t.removeRow key).index.get? c).isSome ↔ (t.index.get? c).isSome :=
  (removeRow_frame t key).2.2.2.2 c

theorem get?_removeRow {k : Column} :
    (t.removeRow key).rows.get? k = if key = k then none else t.rows.get? k := by
  rw [rows_removeRow, Sorted.Map.get?_erase]

theorem mentions_removeRow {k : Column} :
    (t.removeRow key).Mentions k c ↔ k ≠ key ∧ t.Mentions k c := by
  rw [Mentions, Mentions, term?, term?, get?_removeRow]
  by_cases same : key = k
  · simp [same]
  · simp [same, Ne.symm same]

theorem mem_basicVariables_removeRow {v : Variable} :
    v ∈ (t.removeRow key).basicVariables ↔ key ≠ .external v ∧ v ∈ t.basicVariables := by
  rw [removeRow, mem_basicVariables_unmarkBasic]
  cases found : t.rows.get? key with
  | none => rfl
  | some row =>
      have kept := (unlink_all row.terms.keys key { t with rows := t.rows.erase key }).2.2.2.1
      dsimp only at kept ⊢
      rw [kept]

/-- Without a row the index is the inverse of the rows that are left. -/
theorem Aligned.removeRow (aligned : t.Aligned) (key : Column) : (t.removeRow key).Aligned := by
  intro k column
  rw [lists_removeRow, mentions_removeRow, aligned]
  constructor
  · rintro ⟨mentioned, outside⟩
    exact ⟨fun same => outside ⟨same, same ▸ mentioned⟩, mentioned⟩
  · rintro ⟨different, mentioned⟩
    exact ⟨mentioned, fun inRow => different inRow.1⟩

theorem WellFormed.removeRow (wf : t.WellFormed) (key : Column) :
    (t.removeRow key).WellFormed where
  tolerant := by rw [tolerance_removeRow]; exact wf.tolerant
  listed := wf.aligned.removeRow key
  separate column basic := by
    rw [get?_removeRow] at basic
    split at basic
    · cases basic
    · have absent := wf.separate column basic
      rw [← Option.not_isSome_iff_eq_none] at absent ⊢
      rwa [indexed_removeRow]
  nonzero k column := by
    rw [term?, get?_removeRow]
    split
    · simp
    · exact wf.nonzero k column
  plain column present := wf.plain column (indexed_removeRow.1 present)
  basic v := by
    rw [mem_basicVariables_removeRow, wf.basic, get?_removeRow]
    by_cases same : key = .external v
    · simp [same]
    · simp [same]

end SoftSimplex.Tableau
