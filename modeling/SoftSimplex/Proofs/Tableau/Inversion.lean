import SoftSimplex.Proofs.Tableau.Consistent

/-!
Pivots that are undone.

A pivot needs little of a tableau: the index is the inverse of the rows, no key of a row is mentioned, and
no zero is stored (`Coupled`). The row that leaves may be that of an objective, which is a column like
any other then. In such a tableau every entry of every row can be pivoted on, the assignments that hold are
kept, and a pivot back restores the rows exactly (`Coupled.pivot_spec`), also the terms that cancelled out
on the way.
-/

namespace SoftSimplex

namespace Row

variable {row other : Row Rat} {entry exit column : Column} {k : Rat}

/-- Rows that store no zero are known by their constant and their coefficients. -/
theorem eq_of_coefficient_eq (nonzero : ∀ c, row.terms.get? c ≠ some 0)
    (nonzero' : ∀ c, other.terms.get? c ≠ some 0) (constants : row.constant = other.constant)
    (coefficients : ∀ c, row.coefficient c = other.coefficient c) : row = other := by
  have terms : row.terms = other.terms := Sorted.Map.ext_get? fun c => by
    have same := coefficients c
    have stored := nonzero c
    have stored' := nonzero' c
    unfold coefficient at same
    cases found : row.terms.get? c <;> cases found' : other.terms.get? c <;> simp_all
  cases row
  cases other
  simp_all

/-- Replacing a column adds the multiple of the constant of its definition. -/
theorem constant_substituted {solved : Row Rat} (row : Row Rat)
    (apart : solved.terms.get? column = none) :
    (row.substituted 0 column solved).constant =
      row.constant + row.coefficient column * solved.constant := by
  rw [← eval_zero, eval_substituted row apart, eval_zero, eval_zero, sub_zero]

section

variable (mentioned : row.coefficient entry ≠ 0) (apart : row.terms.get? exit = none)
include mentioned

omit mentioned in
theorem coefficient_pivoted_self (row : Row Rat) (entry exit : Column) :
    (row.pivoted entry exit).coefficient exit = 1 / row.coefficient entry := by
  rw [coefficient_pivoted, if_pos rfl]

include apart

/-- A row that is solved for the one column and then for the other is the row that it was. -/
theorem pivoted_pivoted : (row.pivoted entry exit).pivoted exit entry = row := by
  have back := coefficient_pivoted_self row entry exit
  obtain ⟨k, present⟩ := Sorted.Map.contains_iff.1 (contains_of_coefficient mentioned)
  have scale (a : Rat) : a * -(1 / row.coefficient entry) *
      -(1 / (row.pivoted entry exit).coefficient exit) = a := by
    rw [back]
    field_simp
  have terms : ((row.pivoted entry exit).pivoted exit entry).terms = row.terms :=
    Sorted.Map.ext_get? fun c => by
      rw [get?_pivoted, back, one_div_one_div]
      split
      · next same => rw [← same, present, coefficient_of_get? present]
      · next notEntry =>
          rw [get?_solvedFor]
          split
          · next same => rw [← same, apart]
          · next notExit =>
              rw [get?_pivoted, if_neg notExit, get?_solvedFor, if_neg notEntry, Option.map_map]
              simp only [Function.comp_def, scale, Option.map_id']
  have constant : ((row.pivoted entry exit).pivoted exit entry).constant = row.constant := by
    rw [constant_pivoted, constant_pivoted, scale]
  generalize (row.pivoted entry exit).pivoted exit entry = again at terms constant
  cases again
  cases row
  exact congrArg₂ Row.mk terms constant

/-- A column that is replaced by its definition comes back when the definition is solved for it again,
with the terms that it cancelled. -/
theorem substituted_substituted (nonzero : ∀ c, row.terms.get? c ≠ some 0)
    (other_nonzero : ∀ c, other.terms.get? c ≠ some 0) (absent : other.terms.get? exit = none)
    (different : entry ≠ exit) :
    (other.substituted 0 entry (row.pivoted entry exit)).substituted 0 exit row = other := by
  have unsolved : (row.pivoted entry exit).terms.get? entry = none := by
    rw [get?_pivoted, if_neg (Ne.symm different), get?_solvedFor, if_pos rfl]
  have first := ne_zero_of_get?_substituted le_rfl unsolved other_nonzero
    (get?_pivoted_ne_zero mentioned nonzero exit)
  have zero := coefficient_of_get?_none absent
  have multiplier : (other.substituted 0 entry (row.pivoted entry exit)).coefficient exit =
      other.coefficient entry * (1 / row.coefficient entry) := by
    rw [coefficient_substituted other unsolved, if_neg different, coefficient_pivoted_self, zero,
      zero_add]
  refine eq_of_coefficient_eq (ne_zero_of_get?_substituted le_rfl apart first nonzero) other_nonzero
    ?_ fun c => ?_
  · rw [constant_substituted _ apart, multiplier, constant_substituted _ unsolved, constant_pivoted]
    field_simp
    ring
  · rw [coefficient_substituted _ apart, multiplier, coefficient_substituted _ unsolved]
    by_cases isExit : exit = c
    · rw [if_pos isExit, ← isExit, zero]
    · rw [if_neg isExit]
      by_cases isEntry : entry = c
      · rw [if_pos isEntry, ← isEntry]
        field_simp
        ring
      · rw [if_neg isEntry, coefficient_pivoted, if_neg isExit, coefficient_solvedFor, if_neg isEntry]
        field_simp
        ring

end

end Row

namespace Tableau

variable {t t' : Tableau Rat} {entry exit key c : Column} {row other : Row Rat} {σ : Column → Rat}

/-- The index has entries for mentioned columns only. -/
def Trim (t : Tableau Rat) : Prop := ∀ c, (t.index.get? c).isSome → ∃ key, t.Mentions key c

theorem Consistent.coupled (consistent : t.Consistent) : t.Coupled :=
  ⟨consistent.aligned, consistent.apart, consistent.nonzero⟩

theorem trim_iff : t.Trim ↔ ∀ entry ∈ t.index.toList, ∃ row ∈ t.rows.toList,
    row.2.terms.contains entry.1 = true := by
  constructor
  · rintro trim ⟨c, keys⟩ member
    obtain ⟨key, mentioned⟩ := trim c (by rw [Sorted.Map.get?_eq_some_iff.2 member]; rfl)
    obtain ⟨row, found, present⟩ := mentions_iff.1 mentioned
    exact ⟨(key, row), Sorted.Map.get?_eq_some_iff.1 found, present⟩
  · intro each c indexed
    obtain ⟨keys, found⟩ := Option.isSome_iff_exists.1 indexed
    obtain ⟨⟨key, row⟩, member, present⟩ := each (c, keys) (Sorted.Map.get?_eq_some_iff.1 found)
    exact ⟨key, mentions_iff.2 ⟨row, Sorted.Map.get?_eq_some_iff.2 member, present⟩⟩

instance (t : Tableau Rat) (key c : Column) : Decidable (t.Mentions key c) :=
  inferInstanceAs (Decidable ((t.term? key c).isSome = true))

instance (t : Tableau Rat) : Decidable t.Trim := decidable_of_iff _ trim_iff.symm

namespace Coupled

variable (coupled : t.Coupled)
include coupled

section

variable (exact : t.tolerance = some 0) (found : t.rows.get? exit = some row)
  (mentioned : row.terms.contains entry = true)
include exact found mentioned

theorem aligned_pivoted : (t.pivoted entry exit row).Aligned := by
  refine (coupled.aligned.removeRow exit).introduce ((tolerance_removeRow t exit).trans exact) ?_
    (coupled.entry_unsolved found mentioned)
  rw [get?_removeRow, coupled.entry_outside found mentioned]
  split <;> rfl

omit found mentioned in
theorem tolerance_pivoted (row : Row Rat) : (t.pivoted entry exit row).tolerance = some 0 := by
  have exact' := (tolerance_removeRow t exit).trans exact
  rw [Tableau.pivoted, (coupled.aligned.removeRow exit).tolerance_introduce exact', exact']

/-- A pivot keeps the index the inverse of the rows, and keys of rows unmentioned. -/
theorem pivoted : (t.pivoted entry exit row).Coupled where
  aligned := coupled.aligned_pivoted exact found mentioned
  apart key c mentions := by
    have outside : c ≠ entry ∧ (c = exit ∨ t.rows.get? c = none) := by
      have inRow (present : (row.pivoted entry exit).terms.contains c = true) :
          c = exit ∨ t.rows.get? c = none :=
        (Row.contains_pivoted.1 present).imp_right fun kept =>
          coupled.apart exit c (mentions_iff.2 ⟨row, found, kept.2⟩)
      obtain ⟨after, stored, present⟩ := mentions_iff.1 mentions
      rcases coupled.cases_of_pivoted exact stored with
        ⟨rfl, rfl⟩ | ⟨-, -, before, stored', rfl⟩
      · refine ⟨?_, inRow present⟩
        rintro rfl
        rw [Sorted.Map.contains, coupled.entry_unsolved found mentioned] at present
        cases present
      · obtain ⟨different, old | new⟩ := Row.contains_of_contains_substituted
          (coupled.entry_unsolved found mentioned) present
        · exact ⟨Ne.symm different, .inr (coupled.apart key c (mentions_iff.2 ⟨before, stored', old⟩))⟩
        · exact ⟨Ne.symm different, inRow new⟩
    rw [coupled.aligned.get?_pivoted exact, if_neg (Ne.symm outside.1)]
    rcases outside.2 with rfl | absent
    · rw [if_pos rfl]
    · rw [absent]
      split <;> rfl
  nonzero key c stored := by
    have solved := Row.get?_pivoted_ne_zero (coupled.coefficient_ne_zero found mentioned)
      (coupled.stored_ne_zero found) exit
    obtain ⟨after, present, zero⟩ := Option.bind_eq_some_iff.1 stored
    rcases coupled.cases_of_pivoted exact present with
      ⟨rfl, rfl⟩ | ⟨-, -, before, stored', rfl⟩
    · exact solved c zero
    · exact Row.ne_zero_of_get?_substituted le_rfl (coupled.entry_unsolved found mentioned)
        (coupled.stored_ne_zero stored') solved c zero

/-- A column that cancels out of a row is in the row that was solved again, so that a pivot leaves no
entry of the index empty. -/
theorem trim_pivoted (trim : t.Trim) : (t.pivoted entry exit row).Trim := by
  have rows := coupled.aligned.get?_pivoted exact entry exit row
  have solved : (t.pivoted entry exit row).rows.get? entry = some (row.pivoted entry exit) := by
    rw [rows, if_pos rfl]
  intro c indexed
  rw [Tableau.pivoted, (coupled.aligned.removeRow exit).indexed_introduce
    ((tolerance_removeRow t exit).trans exact) (coupled.entry_unsolved found mentioned),
    indexed_removeRow] at indexed
  obtain ⟨different, inRow | before⟩ := indexed
  · exact ⟨entry, mentions_iff.2 ⟨_, solved, inRow⟩⟩
  · obtain ⟨key, mentions⟩ := trim c before
    obtain ⟨other, stored, present⟩ := mentions_iff.1 mentions
    by_cases inSolved : (row.pivoted entry exit).terms.contains c = true
    · exact ⟨entry, mentions_iff.2 ⟨_, solved, inSolved⟩⟩
    · have zero : (row.pivoted entry exit).coefficient c = 0 :=
        Row.coefficient_of_not_contains (by simpa using inSolved)
      have notExit : exit ≠ key := by
        rintro rfl
        rw [found] at stored
        cases stored
        exact inSolved (Row.contains_pivoted.2 (.inr ⟨different, present⟩))
      have notEntry : entry ≠ key := by
        rintro rfl
        rw [coupled.entry_outside found mentioned] at stored
        cases stored
      have kept : (t.pivoted entry exit row).rows.get? key =
          some (other.substituted 0 entry (row.pivoted entry exit)) := by
        rw [rows, if_neg notEntry, if_neg notExit, stored, Option.map_some]
      refine ⟨key, mentions_of_coefficient kept ?_⟩
      rw [Row.coefficient_substituted other (coupled.entry_unsolved found mentioned),
        if_neg (Ne.symm different), zero, mul_zero, add_zero]
      obtain ⟨k, own⟩ := Sorted.Map.contains_iff.1 present
      rw [Row.coefficient_of_get? own]
      rintro rfl
      exact coupled.stored_ne_zero stored c own

/-- A pivot and the pivot back leave the rows as they were. -/
theorem rows_pivoted_pivoted :
    ((t.pivoted entry exit row).pivoted exit entry (row.pivoted entry exit)).rows = t.rows := by
  have coupled' := coupled.pivoted exact found mentioned
  have exact' : (t.pivoted entry exit row).tolerance = some 0 := coupled.tolerance_pivoted exact row
  have nonzero := coupled.coefficient_ne_zero found mentioned
  have absent := coupled.exit_absent found
  have restored := Row.pivoted_pivoted nonzero absent
  refine Sorted.Map.ext_get? fun key => ?_
  rw [coupled'.aligned.get?_pivoted exact', restored]
  by_cases isExit : exit = key
  · rw [if_pos isExit, ← isExit, found]
  · rw [if_neg isExit]
    by_cases isEntry : entry = key
    · rw [if_pos isEntry, ← isEntry, coupled.entry_outside found mentioned]
    · rw [if_neg isEntry, coupled.aligned.get?_pivoted exact, if_neg isEntry, if_neg isExit,
        Option.map_map]
      cases stored : t.rows.get? key with
      | none => rfl
      | some other =>
          exact congrArg some (Row.substituted_substituted nonzero absent
            (coupled.stored_ne_zero found) (coupled.stored_ne_zero stored)
            (coupled.not_contains stored (by rw [found]; rfl))
            (coupled.entry_ne_exit found mentioned))

end

/-- Where no entry is empty, the rows determine the index. -/
theorem index_eq_of_rows_eq (coupled' : t'.Coupled) (trim : t.Trim) (trim' : t'.Trim)
    (same : t'.rows = t.rows) : t'.index = t.index := by
  have indexed {u : Tableau Rat} (aligned : u.Aligned) (trim : u.Trim) (c : Column) :
      (u.index.get? c).isSome ↔ ∃ key, u.Mentions key c :=
    ⟨trim c, fun ⟨key, mentions⟩ => indexed_of_lists ((aligned key c).2 mentions)⟩
  refine Sorted.Map.ext_get? fun c => ?_
  have known : (t'.index.get? c).isSome ↔ (t.index.get? c).isSome := by
    rw [indexed coupled'.aligned trim', indexed coupled.aligned trim]
    exact exists_congr fun key => mentions_congr same
  have listed (key : Column) : t'.Lists key c ↔ t.Lists key c := by
    rw [coupled'.aligned, coupled.aligned, mentions_congr same]
  unfold Lists at listed
  cases keys' : t'.index.get? c with
  | none =>
      rw [keys'] at known
      exact (Option.not_isSome_iff_eq_none.1 fun present => by cases known.2 present).symm
  | some own' =>
      rw [keys'] at known
      obtain ⟨own, keys⟩ := Option.isSome_iff_exists.1 (known.1 rfl)
      rw [keys', keys] at listed
      rw [keys]
      exact congrArg some (Sorted.Set.ext_mem listed)

end Coupled

/-- In a tableau whose index is the inverse of the rows every entry of every row can be pivoted on. That
keeps the assignments that satisfy all rows, the index the inverse of the rows and the keys of rows
unmentioned, and the pivot back restores every row, and the index if it had no empty entries. -/
theorem Coupled.pivot_spec (t : Tableau Rat) (exact : t.tolerance = some 0) (coupled : t.Coupled)
    (entry exit : Column) (row : Row Rat) (found : t.rows.get? exit = some row)
    (mentioned : row.terms.contains entry = true) :
    ∃ t', (pivot entry exit).run t = (.ok (), t') ∧ (∀ σ, t'.Holds σ ↔ t.Holds σ) ∧
      t'.Coupled ∧ (t.Trim → t'.Trim) ∧
      ∃ t'', (pivot exit entry).run t' = (.ok (), t'') ∧ t''.rows = t.rows ∧
        (t.Trim → t''.index = t.index) := by
  obtain ⟨k, present⟩ := Sorted.Map.contains_iff.1 mentioned
  have nonzero := coupled.coefficient_ne_zero found mentioned
  have coupled' := coupled.pivoted exact found mentioned
  have exact' : (t.pivoted entry exit row).tolerance = some 0 := coupled.tolerance_pivoted exact row
  have found' : (t.pivoted entry exit row).rows.get? entry = some (row.pivoted entry exit) := by
    rw [coupled.aligned.get?_pivoted exact, if_pos rfl]
  have mentioned' : (row.pivoted entry exit).terms.contains exit = true :=
    Row.contains_pivoted.2 (.inl rfl)
  have back : (row.pivoted entry exit).terms.get? exit = some (1 / row.coefficient entry) := by
    rw [Row.get?_pivoted, if_pos rfl]
  have rows := coupled.rows_pivoted_pivoted exact found mentioned
  refine ⟨_, ?_, fun σ => coupled.holds_pivoted exact found mentioned, coupled',
    coupled.trim_pivoted exact found mentioned, _, ?_, rows, fun trim => ?_⟩
  · rw [Step.run, pivot_eq_of_found found present exact
      (by rwa [Row.coefficient_of_get? present] at nonzero)]
  · rw [Step.run, pivot_eq_of_found found' back exact' (one_div_ne_zero nonzero)]
  · exact coupled.index_eq_of_rows_eq (coupled'.pivoted exact' found' mentioned') trim
      (coupled'.trim_pivoted exact' found' mentioned' (coupled.trim_pivoted exact found mentioned trim))
      rows

/-- Two slack rows that share an unknown, and an objective. -/
def paired : Tableau Rat :=
  let unknown (name : String) : Column := .external ⟨name, 0⟩
  let slack (serial : Nat) : Column := .symbol ⟨.slack, "s", serial⟩
  .ofRows [(slack 1, .ofTerms [(unknown "x", 1), (unknown "y", 1)] 1),
    (slack 2, .ofTerms [(unknown "x", 2), (unknown "y", 2)] 3),
    (.objective, .ofTerms [(unknown "x", -1), (slack 3, 1)] 2)]

/-- The pivot that solves the first row for `x` cancels `y` out of the second, and the pivot back brings it
again. -/
theorem Coupled.pivot_spec_paired :
    let x : Column := .external ⟨"x", 0⟩
    let y : Column := .external ⟨"y", 0⟩
    let slack (serial : Nat) : Column := .symbol ⟨.slack, "s", serial⟩
    paired.Trim ∧ ¬ paired.Mentions .objective y ∧ paired.Mentions (slack 2) y ∧
      ∃ t', (pivot x (slack 1)).run paired = (.ok (), t') ∧ (∀ σ, t'.Holds σ ↔ paired.Holds σ) ∧
        t'.Coupled ∧ t'.Trim ∧ t'.Mentions .objective y ∧ ¬ t'.Mentions (slack 2) y ∧
        ∃ t'', (pivot (slack 1) x).run t' = (.ok (), t'') ∧ t''.rows = paired.rows ∧
          t''.index = paired.index := by
  intro x y slack
  have consistent : paired.Consistent := Matching.consistent (by decide +kernel) (by decide +kernel)
  have trim : paired.Trim := by decide +kernel
  obtain ⟨row, found⟩ := Option.isSome_iff_exists.1
    (show (paired.rows.get? (slack 1)).isSome = true by decide +kernel)
  have mentioned : row.terms.contains x = true := by
    obtain ⟨row', found', present⟩ := mentions_iff.1
      (show paired.Mentions (slack 1) x by decide +kernel)
    rw [found] at found'
    cases found'
    exact present
  obtain ⟨t', run, holds, coupled', trim', t'', back, rows, index⟩ :=
    Coupled.pivot_spec paired (by decide +kernel) consistent.coupled x (slack 1) row found mentioned
  have reached : t' = ((pivot x (slack 1)).run paired).2 := by rw [run]
  refine ⟨trim, by decide +kernel, by decide +kernel, t', run, holds, coupled', trim' trim, ?_, ?_, t'',
    back, rows, index trim⟩
  · rw [reached]
    decide +kernel
  · rw [reached]
    decide +kernel

end Tableau

end SoftSimplex
