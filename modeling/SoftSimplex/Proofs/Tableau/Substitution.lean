import SoftSimplex.Proofs.Tableau.WellFormed
import SoftSimplex.Tableau.Substitution

/-!
What a substitution does to a tableau.

Every row that mentions the column is replaced by `Row.replaced`, and no other row changes; the index
follows, and the rows that became negative are recorded (`substituteOut_frame`). The proof goes from one
term of one row (`substituteTerm`) over one row to all rows, with the index aligned to the rows at every
moment but for the column that is being replaced (`AlignedApart`).
-/

namespace SoftSimplex.Tableau

variable {t : Tableau Rat} {key column c : Column} {row solved : Row Rat} {e : Rat}

/-- The index is the inverse of the rows, except for one column. -/
def AlignedApart (t : Tableau Rat) (column : Column) : Prop :=
  ∀ key c, c ≠ column → (t.Lists key c ↔ t.Mentions key c)

theorem nearZero_eq (exact : t.tolerance = some e) (value : Rat) :
    t.nearZero value = Scalar.nearZero e value := by
  rw [nearZero, exact, Option.any_some]

theorem isNegative_iff (exact : t.tolerance = some e) (value : Rat) :
    t.isNegative value = true ↔ value < -e := by
  rw [isNegative, exact, Option.any_some, decide_eq_true_eq]

theorem isPositive_iff (exact : t.tolerance = some e) (value : Rat) :
    t.isPositive value = true ↔ e < value := by
  rw [isPositive, exact, Option.any_some, decide_eq_true_eq]

theorem insert_self_of_get? (found : t.rows.get? key = some row) :
    t.rows.insert key row = t.rows := by
  refine Sorted.Map.ext_get? fun k => ?_
  rw [Sorted.Map.get?_insert]
  split
  · next same => rw [← same, found]
  · rfl

theorem insert_insert (rows : Sorted.Map Column (Row Rat)) (key : Column) (a b : Row Rat) :
    (rows.insert key a).insert key b = rows.insert key b := by
  refine Sorted.Map.ext_get? fun k => ?_
  simp only [Sorted.Map.get?_insert]
  split <;> rfl

/-! ### One term -/

/-- One term of a substitution changes its row and links the column, or unlinks it, or leaves the index
as it is. -/
private theorem substituteTerm_cases (exact : t.tolerance = some e)
    (found : t.rows.get? key = some row) (multiplier : Rat) (column : Column) (k : Rat) :
    let mixed := row.mixTerm e multiplier (column, k)
    let stored := { t with rows := t.rows.insert key mixed }
    (mixed.terms.contains column = true ∧
        t.substituteTerm key multiplier column k = stored.link column key) ∨
      (mixed.terms.contains column = false ∧
        t.substituteTerm key multiplier column k = stored.unlink column key) ∨
      (mixed.terms.contains column = true ∧ t.Mentions key column ∧
        t.substituteTerm key multiplier column k = stored) := by
  have term : t.term? key column = row.terms.get? column := by rw [term?, found]; rfl
  have own := Row.get?_mixTerm e multiplier row (column, k) column
  rw [if_pos rfl] at own
  dsimp only
  rw [Sorted.Map.contains, own, mentions_iff_contains found, Sorted.Map.contains, substituteTerm, term]
  cases old : row.terms.get? column with
  | none =>
      refine .inl ⟨rfl, ?_⟩
      simp only [setTerm, found, Row.mixTerm, old]
  | some a =>
      by_cases near : Scalar.nearZero e (a + multiplier * k) = true
      · refine .inr (.inl ⟨by rw [Row.mixed, if_pos near]; rfl, ?_⟩)
        simp only [nearZero_eq exact, dropTerm, found, Row.mixTerm, old, if_pos near]
      · refine .inr (.inr ⟨by rw [Row.mixed, if_neg near]; rfl, rfl, ?_⟩)
        simp only [nearZero_eq exact, setTerm, found, Row.mixTerm, old, if_neg near]

/-- What one term of a substitution changes. -/
private theorem substituteTerm_frame (exact : t.tolerance = some e)
    (found : t.rows.get? key = some row) (multiplier : Rat) (column : Column) (k : Rat) :
    let changed := t.substituteTerm key multiplier column k
    changed.rows = t.rows.insert key (Row.mixTerm e multiplier row (column, k)) ∧
      changed.infeasible = t.infeasible ∧ changed.basicVariables = t.basicVariables ∧
      (∀ r c, ¬(r = key ∧ c = column) → (changed.Lists r c ↔ t.Lists r c)) ∧
      ((t.Lists key column ↔ t.Mentions key column) →
        (changed.Lists key column ↔ changed.Mentions key column)) ∧
      (∀ c, (changed.index.get? c).isSome → c = column ∨ (t.index.get? c).isSome) ∧
      ∀ c, (t.index.get? c).isSome → (changed.index.get? c).isSome := by
  have own : (t.rows.insert key (row.mixTerm e multiplier (column, k))).get? key =
      some (row.mixTerm e multiplier (column, k)) := Sorted.Map.get?_insert_self _ _ _
  rcases substituteTerm_cases exact found multiplier column k with
    ⟨present, same⟩ | ⟨absent, same⟩ | ⟨present, before, same⟩ <;> rw [same]
  · exact ⟨rfl, rfl, rfl, fun r c apart => lists_link.trans (or_iff_right apart),
      fun _ => iff_of_true (lists_link.2 (.inl ⟨rfl, rfl⟩)) ((mentions_iff_contains own).2 present),
      fun c => indexed_link.1, fun c indexed => indexed_link.2 (.inr indexed)⟩
  · refine ⟨by simp, by simp, by simp, fun r c apart => lists_unlink.trans (and_iff_left apart),
      fun _ => ?_, fun c indexed => ?_, fun c indexed => indexed_unlink.2 indexed⟩
    · rw [mentions_congr (rows_unlink _ _ _), mentions_iff_contains own, absent]
      exact iff_of_false (fun listed => (lists_unlink.1 listed).2 ⟨rfl, rfl⟩) Bool.false_ne_true
    · have before := indexed_unlink.1 indexed
      exact .inr before
  · exact ⟨rfl, rfl, rfl, fun r c _ => .rfl,
      fun aligned => iff_of_true (aligned.2 before) ((mentions_iff_contains own).2 present),
      fun c => .inr, fun c => id⟩

/-! ### One row -/

/-- What the terms of a substitution change in one row. -/
private theorem substituteTerms_frame (exact : t.tolerance = some e) {replaced : Column}
    (found : t.rows.get? key = some row) (aligned : t.AlignedApart replaced) (multiplier : Rat)
    (terms : List (Column × Rat)) :
    let changed := terms.foldl (fun t term => t.substituteTerm key multiplier term.1 term.2) t
    changed.rows = t.rows.insert key (terms.foldl (Row.mixTerm e multiplier) row) ∧
      changed.tolerance = t.tolerance ∧
      changed.infeasible = t.infeasible ∧ changed.basicVariables = t.basicVariables ∧
      changed.AlignedApart replaced ∧
      (∀ c, (changed.index.get? c).isSome →
        c ∈ terms.map (·.1) ∨ (t.index.get? c).isSome) ∧
      ∀ c, (t.index.get? c).isSome → (changed.index.get? c).isSome := by
  induction terms generalizing t row with
  | nil =>
      exact ⟨(insert_self_of_get? found).symm, rfl, rfl, rfl, aligned, fun c => .inr, fun c => id⟩
  | cons term rest ih =>
      obtain ⟨rows, infeasible, basics, others, own, indexed, kept⟩ :=
        substituteTerm_frame exact found multiplier term.1 term.2
      have tolerance := tolerance_substituteTerm t key multiplier term.1 term.2
      simp only [List.foldl_cons]
      generalize t.substituteTerm key multiplier term.1 term.2 = next at *
      have stored : next.rows.get? key = some (Row.mixTerm e multiplier row term) := by
        rw [rows, Sorted.Map.get?_insert_self]
      have alignedNext : next.AlignedApart replaced := by
        intro r c away
        by_cases here : r = key ∧ c = term.1
        · obtain ⟨rfl, rfl⟩ := here
          exact own (aligned r term.1 away)
        · rw [others r c here, aligned r c away, Mentions, Mentions, term?, term?, rows,
            Sorted.Map.get?_insert]
          by_cases sameRow : key = r
          · have different : term.1 ≠ c := fun equal => here ⟨sameRow.symm, equal.symm⟩
            subst sameRow
            rw [if_pos rfl, found, Option.bind_some, Option.bind_some, Row.get?_mixTerm,
              if_neg different]
          · rw [if_neg sameRow]
      obtain ⟨rows', tolerance', infeasible', basics', aligned', indexed', kept'⟩ :=
        ih (tolerance.trans exact) stored alignedNext
      refine ⟨?_, tolerance'.trans tolerance, infeasible'.trans infeasible, basics'.trans basics,
        aligned', fun c present => ?_, fun c before => kept' c (kept c before)⟩
      · rw [rows', rows, insert_insert]
      · rw [List.map_cons, List.mem_cons]
        rcases indexed' c present with inRest | before
        · exact .inl (.inr inRest)
        · rcases indexed c before with equal | before
          · exact .inl (.inl equal)
          · exact .inr before

/-- Whether a replaced row is recorded as awaiting repair. -/
def Violates (e : Rat) (key : Column) (row : Row Rat) : Prop :=
  key.isRestricted = true ∧ row.constant < -e

theorem markIfRestricted_eq (exact : t.tolerance = some e) (key : Column) (row : Row Rat) :
    ∃ infeasible, t.markIfRestricted key row.constant = { t with infeasible } ∧
      ∀ r, r ∈ infeasible ↔ (r = key ∧ Violates e key row) ∨ r ∈ t.infeasible := by
  unfold markIfRestricted markIfNegative Violates
  by_cases restricted : key.isRestricted = true
  · by_cases negative : row.constant < -e
    · refine ⟨t.infeasible.insert key, ?_, fun r => ?_⟩
      · rw [if_pos restricted, if_pos ((isNegative_iff exact _).2 negative), markInfeasible]
      · simp [Sorted.Set.mem_insert, restricted, negative]
    · refine ⟨t.infeasible, ?_, fun r => ?_⟩
      · rw [if_pos restricted, if_neg fun marked => negative ((isNegative_iff exact _).1 marked)]
      · simp [negative]
  · refine ⟨t.infeasible, by rw [if_neg restricted], fun r => by simp [restricted]⟩

/-- What a substitution changes in one row. -/
private theorem substituteRow_frame (exact : t.tolerance = some e)
    (found : t.rows.get? key = some row) (aligned : t.AlignedApart column) (solved : Row Rat) :
    let changed := substituteRow column solved t key
    changed.rows = t.rows.insert key (row.replaced e column solved) ∧
      changed.basicVariables = t.basicVariables ∧ changed.AlignedApart column ∧
      (∀ c, (changed.index.get? c).isSome →
        solved.terms.contains c = true ∨ (t.index.get? c).isSome) ∧
      (∀ c, (t.index.get? c).isSome → (changed.index.get? c).isSome) ∧
      ∀ r, r ∈ changed.infeasible ↔
        (r = key ∧ Violates e key (row.replaced e column solved)) ∨ r ∈ t.infeasible := by
  set multiplier := row.coefficient column with multiplierEq
  set constant := row.constant + multiplier * solved.constant with constantEq
  let start : Tableau Rat :=
    { t with rows := t.rows.insert key ⟨row.terms.erase column, constant⟩ }
  have startFound : start.rows.get? key = some ⟨row.terms.erase column, constant⟩ :=
    Sorted.Map.get?_insert_self _ _ _
  have startAligned : start.AlignedApart column := by
    intro r c away
    have listed : start.Lists r c ↔ t.Lists r c := .rfl
    rw [listed, aligned r c away, Mentions, Mentions, term?, term?, Sorted.Map.get?_insert]
    by_cases same : key = r
    · subst same
      rw [if_pos rfl, found, Option.bind_some, Option.bind_some, Sorted.Map.get?_erase,
        if_neg (Ne.symm away)]
    · rw [if_neg same]
  obtain ⟨rows, tolerance, infeasible, basics, alignedNext, indexed, kept⟩ :=
    substituteTerms_frame (t := start) exact startFound startAligned multiplier solved.terms.toList
  have shape : substituteRow column solved t key =
      (t.replaceTerms column key row constant multiplier solved.terms.toList).markIfRestricted key
        (row.replaced e column solved).constant := by
    rw [substituteRow, found, Row.constant_replaced]
  obtain ⟨marked, markedEq, members⟩ := markIfRestricted_eq
    (t := t.replaceTerms column key row constant multiplier solved.terms.toList)
    (tolerance.trans exact) key (row.replaced e column solved)
  dsimp only
  rw [shape, markedEq]
  refine ⟨?_, basics, alignedNext, fun c present => ?_, kept, fun r => ?_⟩
  · exact rows.trans (insert_insert _ _ _ _)
  · rcases indexed c present with inTerms | before
    · exact .inl (Sorted.Map.mem_keys_iff_contains.1 inTerms)
    · exact .inr before
  · rw [members]
    have same : (t.replaceTerms column key row constant multiplier
      solved.terms.toList).infeasible = t.infeasible := infeasible
    rw [same]

/-! ### All rows -/

/-- What replacing a column in several rows changes. -/
private theorem substituteRows_frame (exact : t.tolerance = some e)
    (aligned : t.AlignedApart column) (solved : Row Rat) {keys : List Column} (nodup : keys.Nodup)
    (stored : ∀ key ∈ keys, (t.rows.get? key).isSome) :
    let changed := keys.foldl (substituteRow column solved) t
    (∀ r, changed.rows.get? r =
        if r ∈ keys then (t.rows.get? r).map fun row => row.replaced e column solved
        else t.rows.get? r) ∧
      changed.tolerance = t.tolerance ∧ changed.basicVariables = t.basicVariables ∧
      changed.AlignedApart column ∧
      (∀ c, (changed.index.get? c).isSome →
        solved.terms.contains c = true ∨ (t.index.get? c).isSome) ∧
      (∀ c, (t.index.get? c).isSome → (changed.index.get? c).isSome) ∧
      ∀ r, r ∈ changed.infeasible ↔
        (r ∈ keys ∧ ∃ row, t.rows.get? r = some row ∧
          Violates e r (row.replaced e column solved)) ∨ r ∈ t.infeasible := by
  induction keys generalizing t with
  | nil => exact ⟨fun r => by simp, rfl, rfl, aligned, fun c => .inr, fun c => id, fun r => by simp⟩
  | cons key rest ih =>
      obtain ⟨outside, nodupRest⟩ := List.nodup_cons.1 nodup
      obtain ⟨row, found⟩ := Option.isSome_iff_exists.1 (stored key (List.mem_cons_self ..))
      obtain ⟨rows, basics, alignedNext, indexed, kept, infeasible⟩ :=
        substituteRow_frame exact found aligned solved
      have tolerance := tolerance_substituteRow t column solved key
      simp only [List.foldl_cons]
      generalize substituteRow column solved t key = next at *
      have others : ∀ r, r ≠ key → next.rows.get? r = t.rows.get? r := fun r different => by
        rw [rows, Sorted.Map.get?_insert, if_neg (Ne.symm different)]
      obtain ⟨rows', tolerance', basics', aligned', indexed', kept', infeasible'⟩ :=
        ih (tolerance.trans exact) alignedNext nodupRest fun r member => by
          rw [others r fun same => outside (same ▸ member)]
          exact stored r (List.mem_cons_of_mem _ member)
      refine ⟨fun r => ?_, tolerance'.trans tolerance, basics'.trans basics, aligned',
        fun c present => ?_, fun c before => kept' c (kept c before), fun r => ?_⟩
      · rw [rows']
        by_cases same : r = key
        · subst same
          rw [if_neg outside, if_pos (List.mem_cons_self ..), rows, Sorted.Map.get?_insert_self,
            found, Option.map_some]
        · rw [others r same]
          simp only [List.mem_cons, same, false_or]
      · rcases indexed' c present with inTerms | before
        · exact .inl inTerms
        · exact indexed c before
      · rw [infeasible', infeasible]
        by_cases same : r = key
        · subst same
          simp [outside, found]
        · rw [others r same]
          simp [same]

section

variable (aligned : t.Aligned) (exact : t.tolerance = some e)
include aligned exact

private theorem substituteOut_frame (column : Column) (solved : Row Rat) :
    let changed := t.substituteOut column solved
    (∀ r, changed.rows.get? r = (t.rows.get? r).map fun row => row.substituted e column solved) ∧
      changed.tolerance = t.tolerance ∧
      (∀ v, v ∈ changed.basicVariables ↔ column = .external v ∨ v ∈ t.basicVariables) ∧
      (∀ r c, c ≠ column → (changed.Lists r c ↔ changed.Mentions r c)) ∧
      changed.index.get? column = none ∧
      (∀ c, c ≠ column → (changed.index.get? c).isSome →
        solved.terms.contains c = true ∨ (t.index.get? c).isSome) ∧
      (∀ c, c ≠ column → (t.index.get? c).isSome → (changed.index.get? c).isSome) ∧
      ∀ r, r ∈ changed.infeasible ↔
        (∃ row, t.rows.get? r = some row ∧ row.terms.contains column = true ∧
          Violates e r (row.substituted e column solved)) ∨ r ∈ t.infeasible := by
  have stored : ∀ key ∈ t.rowsWith column, (t.rows.get? key).isSome := by
    intro key member
    obtain ⟨row, found, -⟩ := mentions_iff.1 ((aligned key column).1 (mem_rowsWith.1 member))
    rw [found]
    rfl
  obtain ⟨rows, tolerance, basics, alignedNext, indexed, kept, infeasible⟩ :=
    substituteRows_frame exact (fun key c (_ : c ≠ column) => aligned key c) solved
      (t.nodup_rowsWith column) stored
  have entered : ∀ s : Tableau Rat, (s.enterBasis column).rows = s.rows ∧
      (s.enterBasis column).index = s.index.erase column ∧
      (s.enterBasis column).tolerance = s.tolerance ∧
      (s.enterBasis column).infeasible = s.infeasible := fun s => by
    cases column <;> exact ⟨rfl, rfl, rfl, rfl⟩
  have variablesOf : ∀ (s : Tableau Rat) (v : Variable),
      v ∈ (s.enterBasis column).basicVariables ↔
        column = .external v ∨ v ∈ s.basicVariables := fun s v => by
    rw [← mem_basicVariables_markBasic]
    cases column <;> rfl
  dsimp only
  rw [substituteOut]
  generalize (t.rowsWith column).foldl (substituteRow column solved) t = last at *
  obtain ⟨enteredRows, enteredIndex, enteredTolerance, enteredInfeasible⟩ := entered last
  have mentioned : ∀ r row, t.rows.get? r = some row →
      (r ∈ t.rowsWith column ↔ row.terms.contains column = true) := by
    intro r row found
    rw [mem_rowsWith, aligned, mentions_iff]
    refine ⟨?_, fun present => ⟨row, found, present⟩⟩
    rintro ⟨row', found', present⟩
    rw [found] at found'
    cases found'
    exact present
  refine ⟨fun r => ?_, enteredTolerance.trans tolerance, fun v => ?_, fun r c away => ?_, ?_,
    fun c away present => ?_, fun c away before => ?_, fun r => ?_⟩
  · rw [enteredRows, rows]
    cases found : t.rows.get? r with
    | none => simp
    | some row =>
        rw [Option.map_some, Option.map_some, Row.substituted]
        simp only [mentioned r row found]
        split <;> rfl
  · rw [variablesOf, basics]
  · rw [mentions_congr enteredRows, ← alignedNext r c away, Lists, Lists, enteredIndex,
      Sorted.Map.get?_erase, if_neg (Ne.symm away)]
  · rw [enteredIndex, Sorted.Map.get?_erase_self]
  · rw [enteredIndex, Sorted.Map.get?_erase, if_neg (Ne.symm away)] at present
    exact indexed c present
  · rw [enteredIndex, Sorted.Map.get?_erase, if_neg (Ne.symm away)]
    exact kept c before
  · rw [enteredInfeasible, infeasible]
    refine or_congr_left ⟨?_, ?_⟩
    · rintro ⟨member, row, found, violated⟩
      have present := (mentioned r row found).1 member
      refine ⟨row, found, present, ?_⟩
      rwa [Row.substituted, if_pos present]
    · rintro ⟨row, found, present, violated⟩
      refine ⟨(mentioned r row found).2 present, row, found, ?_⟩
      rwa [Row.substituted, if_pos present] at violated

end

/-! ### A new basic column -/

/-- Replace a column by its definition everywhere, and store the definition. -/
def introduce (t : Tableau Rat) (column : Column) (solved : Row Rat) : Tableau Rat :=
  (t.substituteOut column solved).insertRow column solved

/-- A column can be defined by a row that mentions neither it nor any basic column or objective. -/
structure Definable (t : Tableau Rat) (column : Column) (solved : Row Rat) : Prop where
  absent : t.rows.get? column = none
  nonzero : ∀ c, solved.terms.get? c ≠ some 0
  apart : solved.terms.get? column = none
  noObjective : ∀ c, solved.terms.contains c = true → c.isObjective = false
  nonbasic : ∀ c, solved.terms.contains c = true → t.rows.get? c = none

namespace Aligned

variable (aligned : t.Aligned) (exact : t.tolerance = some e)
include aligned exact

theorem get?_introduce (column : Column) (solved : Row Rat) (key : Column) :
    (t.introduce column solved).rows.get? key =
      if column = key then some solved
      else (t.rows.get? key).map fun row => row.substituted e column solved := by
  rw [introduce, get?_insertRow, (substituteOut_frame aligned exact column solved).1]

theorem tolerance_introduce (column : Column) (solved : Row Rat) :
    (t.introduce column solved).tolerance = t.tolerance := by
  rw [introduce, tolerance_insertRow, (substituteOut_frame aligned exact column solved).2.1]

/-- The rows that a new basic column leaves to repair: the old ones, and those that it makes
negative. -/
theorem mem_infeasible_introduce (column : Column) (solved : Row Rat) (key : Column) :
    key ∈ (t.introduce column solved).infeasible ↔
      (∃ row, t.rows.get? key = some row ∧ row.terms.contains column = true ∧
        Violates e key (row.substituted e column solved)) ∨ key ∈ t.infeasible := by
  rw [introduce, infeasible_insertRow,
    (substituteOut_frame aligned exact column solved).2.2.2.2.2.2.2]

/-- A new basic column is not indexed; what its row mentions is. -/
theorem indexed_introduce {column : Column} {solved : Row Rat}
    (apart : solved.terms.get? column = none) :
    ((t.introduce column solved).index.get? c).isSome ↔
      c ≠ column ∧ (solved.terms.contains c = true ∨ (t.index.get? c).isSome) := by
  obtain ⟨-, -, -, -, erased, indexed, kept, -⟩ := substituteOut_frame aligned exact column solved
  have away (inRow : solved.terms.contains c = true) : c ≠ column := by
    rintro rfl
    rw [Sorted.Map.contains, apart] at inRow
    cases inRow
  rw [Tableau.introduce, indexed_insertRow]
  constructor
  · rintro (inRow | before)
    · exact ⟨away inRow, .inl inRow⟩
    · have different : c ≠ column := by
        rintro rfl
        rw [erased] at before
        cases before
      exact ⟨different, indexed c different before⟩
  · rintro ⟨different, inRow | before⟩
    · exact .inl inRow
    · exact .inr (kept c different before)

/-- A new basic column that its own row does not mention keeps the index the inverse of the rows. -/
protected theorem introduce {column : Column} {solved : Row Rat}
    (absent : t.rows.get? column = none) (apart : solved.terms.get? column = none) :
    (t.introduce column solved).Aligned := by
  obtain ⟨rows, -, -, alignedNext, erased, -⟩ := substituteOut_frame aligned exact column solved
  have gone : ∀ key, ¬(t.substituteOut column solved).Mentions key column := by
    intro key mentioned
    obtain ⟨row', found', present⟩ := mentions_iff.1 mentioned
    rw [rows] at found'
    obtain ⟨row, -, rfl⟩ := Option.map_eq_some_iff.1 found'
    exact (Row.contains_of_contains_substituted apart present).1 rfl
  intro key c
  rw [Tableau.introduce, lists_insertRow, mentions_insertRow]
  have agree : (t.substituteOut column solved).Lists key c ↔
      (t.substituteOut column solved).Mentions key c := by
    by_cases away : c = column
    · subst away
      refine iff_of_false (fun listed => ?_) (gone key)
      rw [Lists, erased] at listed
      exact Sorted.Set.not_mem_empty _ listed
    · exact alignedNext key c away
  rw [agree]
  refine or_congr_right ⟨fun mentioned => ⟨?_, mentioned⟩, And.right⟩
  rintro rfl
  obtain ⟨row', found', -⟩ := mentions_iff.1 mentioned
  rw [rows, absent] at found'
  cases found'

end Aligned

section

variable (wf : t.WellFormed) (exact : t.tolerance = some e)
include wf exact

theorem get?_introduce (column : Column) (solved : Row Rat) (key : Column) :
    (t.introduce column solved).rows.get? key =
      if column = key then some solved
      else (t.rows.get? key).map fun row => row.substituted e column solved :=
  wf.aligned.get?_introduce exact column solved key

theorem tolerance_introduce (column : Column) (solved : Row Rat) :
    (t.introduce column solved).tolerance = t.tolerance :=
  wf.aligned.tolerance_introduce exact column solved

theorem mem_infeasible_introduce (column : Column) (solved : Row Rat) (key : Column) :
    key ∈ (t.introduce column solved).infeasible ↔
      (∃ row, t.rows.get? key = some row ∧ row.terms.contains column = true ∧
        Violates e key (row.substituted e column solved)) ∨ key ∈ t.infeasible :=
  wf.aligned.mem_infeasible_introduce exact column solved key

theorem indexed_of_indexed_introduce {column : Column} {solved : Row Rat}
    (apart : solved.terms.get? column = none)
    (present : ((t.introduce column solved).index.get? c).isSome) :
    c ≠ column ∧ (solved.terms.contains c = true ∨ (t.index.get? c).isSome) :=
  (wf.aligned.indexed_introduce exact apart).1 present

theorem indexed_introduce_of_indexed {column : Column} (solved : Row Rat) (away : c ≠ column)
    (before : (t.index.get? c).isSome) : ((t.introduce column solved).index.get? c).isSome :=
  indexed_insertRow.2 (.inr ((substituteOut_frame wf.aligned exact column solved).2.2.2.2.2.2.1 c
    away before))

/-- A new basic column keeps a tableau well formed. -/
theorem WellFormed.introduce {column : Column} {solved : Row Rat}
    (definable : t.Definable column solved) : (t.introduce column solved).WellFormed := by
  have basics := (substituteOut_frame wf.aligned exact column solved).2.2.1
  have nonnegative : 0 ≤ e := by
    obtain ⟨e', exact', bound⟩ := wf.tolerant
    rw [exact] at exact'
    cases exact'
    exact bound
  refine ⟨?_, wf.aligned.introduce exact definable.absent definable.apart, fun c basic => ?_,
    fun key c => ?_, fun c present => ?_, fun v => ?_⟩
  · rw [tolerance_introduce wf exact]
    exact wf.tolerant
  · rw [← Option.not_isSome_iff_eq_none]
    intro present
    obtain ⟨away, inSolved | before⟩ := indexed_of_indexed_introduce wf exact definable.apart present
    · rw [get?_introduce wf exact, if_neg (Ne.symm away), Option.isSome_map,
        definable.nonbasic c inSolved] at basic
      cases basic
    · rw [get?_introduce wf exact, if_neg (Ne.symm away), Option.isSome_map] at basic
      rw [wf.separate c basic] at before
      cases before
  · rw [term?, get?_introduce wf exact]
    split
    · exact definable.nonzero c
    · cases found : t.rows.get? key with
      | none => simp
      | some row =>
          have kept : ∀ c, row.terms.get? c ≠ some 0 := fun c => by
            simpa [term?, found] using wf.nonzero key c
          exact Row.ne_zero_of_get?_substituted nonnegative definable.apart kept definable.nonzero c
  · rcases (indexed_of_indexed_introduce wf exact definable.apart present).2 with inSolved | before
    · exact definable.noObjective c inSolved
    · exact wf.plain c before
  · rw [Tableau.introduce, mem_basicVariables_insertRow, basics, wf.basic,
      ← Tableau.introduce, get?_introduce wf exact]
    by_cases same : column = .external v
    · simp [same]
    · simp [same]

end

end SoftSimplex.Tableau
