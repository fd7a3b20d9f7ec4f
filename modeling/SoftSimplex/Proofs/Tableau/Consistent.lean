import SoftSimplex.Proofs.Tableau.Minimization
import SoftSimplex.Proofs.Step.Together

/-!
Tableaus of which only the rows and the index are known to fit.

Both simplex methods look at nothing but the rows and the index. In a `Consistent` tableau these are each
other's inverse, while the index may keep empty entries of any column and the sets of variables may be
anything. Its `tidied` copy has the same rows and is well formed, and the two make the same pivots
(`Mirrors`), so that what is proved of well-formed tableaus holds of consistent ones.
-/

namespace SoftSimplex.Tableau

variable {t t' u u' : Tableau Rat} {objective entry exit key column c : Column} {goal row : Row Rat}

/-- The index is the inverse of the rows, the rows look outside the basis and store no zero, and objectives
are keys of rows only. -/
structure Consistent (t : Tableau Rat) : Prop where
  exact : t.tolerance = some 0
  aligned : t.Aligned
  apart : ∀ key column, t.Mentions key column → t.rows.get? column = none
  plain : ∀ key column, t.Mentions key column → column.isObjective = false
  nonzero : ∀ key column, t.term? key column ≠ some 0

theorem Exact.consistent (exact : t.Exact) : t.Consistent where
  exact := exact.exact
  aligned := exact.aligned
  apart _ _ := exact.not_basic
  plain := exact.noObjective
  nonzero := exact.nonzero

/-! ### Consistency of given tableaus -/

/-- Every entry of the index stands for a term, and every term is in the index, is not zero, and is of a
column that is neither basic nor an objective. -/
def Matching (t : Tableau Rat) : Prop :=
  (∀ entry ∈ t.index.toList, ∀ key ∈ entry.2.toList, (t.term? key entry.1).isSome) ∧
    ∀ entry ∈ t.rows.toList, ∀ term ∈ entry.2.terms.toList,
      entry.1 ∈ t.rowsWith term.1 ∧ t.isBasic term.1 = false ∧ term.1.isObjective = false ∧ term.2 ≠ 0

instance (t : Tableau Rat) : Decidable t.Matching := by
  unfold Matching
  infer_instance

theorem Matching.term (matching : t.Matching) {k : Rat} (stored : t.term? key column = some k) :
    key ∈ t.rowsWith column ∧ t.isBasic column = false ∧ column.isObjective = false ∧ k ≠ 0 := by
  obtain ⟨row, found, present⟩ := Option.bind_eq_some_iff.1 stored
  exact matching.2 (key, row) (Sorted.Map.get?_eq_some_iff.1 found) (column, k)
    (Sorted.Map.get?_eq_some_iff.1 present)

theorem Matching.consistent (matching : t.Matching) (exact : t.tolerance = some 0) :
    t.Consistent where
  exact := exact
  aligned key column := by
    constructor
    · intro listed
      obtain ⟨keys, found⟩ := Option.isSome_iff_exists.1 (indexed_of_lists listed)
      rw [Lists, found, Option.getD_some] at listed
      exact matching.1 (column, keys) (Sorted.Map.get?_eq_some_iff.1 found) key
        (Sorted.Set.mem_toList.2 listed)
    · intro mentioned
      obtain ⟨k, stored⟩ := Option.isSome_iff_exists.1 mentioned
      exact mem_rowsWith.1 (matching.term stored).1
  apart key column mentioned := by
    obtain ⟨k, stored⟩ := Option.isSome_iff_exists.1 mentioned
    have outside := (matching.term stored).2.1
    rwa [isBasic, Sorted.Map.contains, ← Bool.not_eq_true, Option.not_isSome_iff_eq_none] at outside
  plain key column mentioned := by
    obtain ⟨k, stored⟩ := Option.isSome_iff_exists.1 mentioned
    exact (matching.term stored).2.2.1
  nonzero key column stored := (matching.term stored).2.2.2 rfl

/-- The tableau of some rows, where only zero counts as zero. -/
def ofRows (rows : List (Column × Row Rat)) : Tableau Rat :=
  rows.foldl (fun t entry => t.insertRow entry.1 entry.2) (.empty (some 0))

/-! ### The tidied copy -/

/-- The tableau without index entries of basic columns and objectives, and with the basic variables that its
rows have. -/
def tidied (t : Tableau Rat) : Tableau Rat :=
  { t with
    index := t.index.filter fun column _ => !t.isBasic column && !column.isObjective
    basicVariables := .ofList (t.rows.keys.filterMap fun
      | .external v => some v
      | .symbol _ => none) }

theorem indexed_tidied : (t.tidied.index.get? c).isSome ↔
    (t.index.get? c).isSome ∧ t.rows.get? c = none ∧ c.isObjective = false := by
  rw [tidied, Sorted.Map.get?_filter]
  cases t.index.get? c with
  | none => simp
  | some keys => simp [isBasic, Sorted.Map.contains]

theorem lists_tidied :
    t.tidied.Lists key c ↔ t.Lists key c ∧ t.rows.get? c = none ∧ c.isObjective = false := by
  have keeps : (!t.isBasic c && !c.isObjective) = true ↔
      t.rows.get? c = none ∧ c.isObjective = false := by
    simp [isBasic, Sorted.Map.contains]
  rw [Lists, Lists, tidied, Sorted.Map.get?_filter, ← keeps]
  cases found : t.index.get? c with
  | none => simp
  | some keys =>
      cases !t.isBasic c && !c.isObjective with
      | true => simp [Option.filter]
      | false => simp [Option.filter]

theorem Consistent.exact_tidied (consistent : t.Consistent) : t.tidied.Exact where
  tolerant := ⟨0, consistent.exact, le_rfl⟩
  exact := consistent.exact
  listed key column := by
    have same : t.tidied.Mentions key column ↔ t.Mentions key column := mentions_congr rfl
    rw [lists_tidied, consistent.aligned, same]
    exact and_iff_left_of_imp fun mentioned =>
      ⟨consistent.apart key column mentioned, consistent.plain key column mentioned⟩
  separate column basic := by
    rw [← Option.not_isSome_iff_eq_none]
    intro indexed
    rw [tidied, (indexed_tidied.1 indexed).2.1] at basic
    cases basic
  nonzero := consistent.nonzero
  plain column indexed := (indexed_tidied.1 indexed).2.2
  basic v := by
    rw [tidied, Sorted.Set.mem_ofList, ← Sorted.Map.mem_keys_iff, List.mem_filterMap]
    constructor
    · rintro ⟨column, member, same⟩
      cases column with
      | external w => cases same; exact member
      | symbol s => cases same
    · exact fun member => ⟨.external v, member, rfl⟩

theorem basisBound_tidied_le (t : Tableau Rat) : t.tidied.basisBound ≤ t.basisBound := by
  have fewer : t.tidied.index.size ≤ t.index.size := List.length_filter_le _ _
  refine Nat.pow_le_pow_right (by norm_num) ?_
  have rows : t.tidied.rows.size = t.rows.size := rfl
  have mentioned : t.tidied.mentioned.length = t.mentioned.length := rfl
  omega

/-! ### Tableaus with the same rows -/

/-- A consistent tableau has the same rows as a well-formed one. -/
structure Mirrors (t u : Tableau Rat) : Prop where
  consistent : t.Consistent
  exact : u.Exact
  rows : t.rows = u.rows

theorem Consistent.mirrors (consistent : t.Consistent) : t.Mirrors t.tidied :=
  ⟨consistent, consistent.exact_tidied, rfl⟩

namespace Mirrors

variable (mirrors : t.Mirrors u)
include mirrors

theorem mentions : t.Mentions key c ↔ u.Mentions key c := mentions_congr mirrors.rows

theorem rowsWith_eq (column : Column) : t.rowsWith column = u.rowsWith column := by
  have same : (t.index.get? column).getD ∅ = (u.index.get? column).getD ∅ :=
    Sorted.Set.ext_mem fun key => by
      rw [← Lists, ← Lists, mirrors.consistent.aligned, mirrors.exact.aligned, mirrors.mentions]
  rw [rowsWith, rowsWith, same]

theorem basicSolution_eq : t.basicSolution = u.basicSolution := by
  funext c
  rw [basicSolution, basicSolution, extend, extend, mirrors.rows]

theorem holds_iff (σ : Column → Rat) : t.Holds σ ↔ u.Holds σ := by
  rw [Holds, Holds, mirrors.rows]

theorem feasible_iff : t.Feasible ↔ u.Feasible := by
  rw [Feasible, Feasible, mirrors.basicSolution_eq]

theorem awaiting (rest rest' : Sorted.Set Column) : (t.awaiting rest).Mirrors (u.awaiting rest') where
  consistent := ⟨mirrors.consistent.exact, mirrors.consistent.aligned, mirrors.consistent.apart,
    mirrors.consistent.plain, mirrors.consistent.nonzero⟩
  exact := mirrors.exact.awaiting rest'
  rows := mirrors.rows

theorem pivotal (pivotal : t.Pivotal entry exit row) : u.Pivotal entry exit row :=
  ⟨mirrors.rows ▸ pivotal.found, pivotal.mentioned, pivotal.plain⟩

theorem pivoted (pivotal : t.Pivotal entry exit row) :
    (t.pivoted entry exit row).Mirrors (u.pivoted entry exit row) := by
  have exact' := mirrors.exact.pivoted (mirrors.pivotal pivotal)
  have definable := mirrors.exact.definable (mirrors.pivotal pivotal)
  have removed : (t.removeRow exit).rows = (u.removeRow exit).rows := by
    rw [rows_removeRow, rows_removeRow, mirrors.rows]
  have aligned : (t.removeRow exit).Aligned := mirrors.consistent.aligned.removeRow exit
  have tolerance : (t.removeRow exit).tolerance = some 0 :=
    (tolerance_removeRow t exit).trans mirrors.consistent.exact
  have rows : (t.pivoted entry exit row).rows = (u.pivoted entry exit row).rows :=
    Sorted.Map.ext_get? fun key => by
      rw [Tableau.pivoted, aligned.get?_introduce tolerance, removed,
        ← get?_introduce (mirrors.exact.removeRow exit).toWellFormed
          (mirrors.exact.removeRow exit).exact]
      rfl
  have consistent' := exact'.consistent
  refine ⟨⟨?_, ?_, ?_, ?_, ?_⟩, exact', rows⟩
  · exact (aligned.tolerance_introduce tolerance entry _).trans tolerance
  · exact aligned.introduce tolerance (removed ▸ definable.absent) definable.apart
  · intro key column mentioned
    rw [rows]
    exact consistent'.apart key column ((mentions_congr rows).1 mentioned)
  · exact fun key column mentioned => consistent'.plain key column ((mentions_congr rows).1 mentioned)
  · intro key column stored
    rw [term?, rows] at stored
    exact consistent'.nonzero key column stored

theorem pivot_eq (pivotal : t.Pivotal entry exit row) :
    pivot entry exit t = ⟨.ok (), t.pivoted entry exit row, [.pivoting entry exit]⟩ :=
  pivotal.pivot_eq mirrors.consistent.exact
    (mirrors.exact.entry_coefficient (mirrors.pivotal pivotal))

end Mirrors

end SoftSimplex.Tableau
