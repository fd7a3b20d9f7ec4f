import SoftSimplex.Proofs.Tableau.Holds

/-!
Changes of single numbers: columns struck out, constants moved, objectives added to.

Each change keeps a tableau well formed. To strike a column out is to put zero for it
(`Exact.holds_removeColumn`), to move a constant is to shift the values of its column
(`Exact.holds_setConstant`), and to add a column to an objective is to shift the objective by it
(`Exact.holds_addToObjective`). What a tableau records as awaiting repair changes nothing of this
(`Exact.awaiting`).
-/

namespace SoftSimplex

/-- A row without the term of a column. -/
def Row.without (row : Row Rat) (column : Column) : Row Rat :=
  { row with terms := row.terms.erase column }

namespace Row

variable {row : Row Rat} {column : Column}

theorem get?_without (row : Row Rat) (column other : Column) :
    (row.without column).terms.get? other =
      if column = other then none else row.terms.get? other := by
  rw [without, Sorted.Map.get?_erase]

theorem without_of_absent (absent : row.terms.get? column = none) : row.without column = row := by
  have same : row.terms.erase column = row.terms := Sorted.Map.ext_get? fun c => by
    rw [Sorted.Map.get?_erase]
    split
    · next equal => rw [← equal, absent]
    · rfl
  rw [without, same]

theorem eval_without (row : Row Rat) (column : Column) (σ : Column → Rat) :
    (row.without column).eval σ = row.eval (Function.update σ column 0) := by
  rw [without, eval_erase, eval_update_assignment]
  ring

end Row

namespace Tableau

variable {t t' : Tableau Rat} {key column c : Column} {row : Row Rat} {e k : Rat}

/-- Well-formedness looks at terms, at the index and at the basic variables only. -/
theorem WellFormed.of_terms (wf : t.WellFormed) (tolerance : t'.tolerance = t.tolerance)
    (index : t'.index = t.index) (basics : t'.basicVariables = t.basicVariables)
    (terms : ∀ key, (t'.rows.get? key).map Row.terms = (t.rows.get? key).map Row.terms) :
    t'.WellFormed := by
  have term : ∀ key c, t'.term? key c = t.term? key c := by
    intro key c
    have same := terms key
    rw [term?, term?]
    cases found' : t'.rows.get? key <;> cases found : t.rows.get? key <;>
      rw [found', found] at same <;> simp_all
  have stored : ∀ key, (t'.rows.get? key).isSome = (t.rows.get? key).isSome := by
    intro key
    rw [← Option.isSome_map (f := Row.terms), terms key, Option.isSome_map]
  refine ⟨by rw [tolerance]; exact wf.tolerant, fun key c => ?_, fun c basic => ?_,
    fun key c => ?_, fun c present => ?_, fun v => ?_⟩
  · rw [lists_congr index, Mentions, term]
    exact wf.listed key c
  · rw [index]
    exact wf.separate c (by rw [← stored]; exact basic)
  · rw [term]
    exact wf.nonzero key c
  · exact wf.plain c (by rwa [index] at present)
  · rw [basics, stored]
    exact wf.basic v

/-! ### Striking a column out -/

theorem get?_dropTerm (t : Tableau Rat) (key column k : Column) :
    (t.dropTerm key column).rows.get? k =
      if key = k then (t.rows.get? k).map (·.without column) else t.rows.get? k := by
  unfold dropTerm
  cases found : t.rows.get? key with
  | none =>
      dsimp only
      split
      · next same => rw [← same, found, Option.map_none]
      · rfl
  | some row =>
      dsimp only
      rw [Sorted.Map.get?_insert]
      split
      · next same => rw [← same, found, Option.map_some, Row.without]
      · rfl

private theorem dropTerms_frame (keys : List Column) (column : Column) (t : Tableau Rat) :
    let changed := keys.foldl (fun t key => t.dropTerm key column) t
    (∀ k, changed.rows.get? k =
        if k ∈ keys then (t.rows.get? k).map (·.without column) else t.rows.get? k) ∧
      changed.index = t.index ∧ changed.tolerance = t.tolerance ∧
      changed.basicVariables = t.basicVariables ∧ changed.infeasible = t.infeasible := by
  induction keys generalizing t with
  | nil => simp
  | cons key rest ih =>
      have small : (t.dropTerm key column).index = t.index ∧
          (t.dropTerm key column).tolerance = t.tolerance ∧
          (t.dropTerm key column).basicVariables = t.basicVariables ∧
          (t.dropTerm key column).infeasible = t.infeasible := by
        unfold dropTerm
        split <;> exact ⟨rfl, rfl, rfl, rfl⟩
      obtain ⟨rows, index, tolerance, basics, infeasible⟩ := ih (t.dropTerm key column)
      refine ⟨fun k => ?_, index.trans small.1, tolerance.trans small.2.1,
        basics.trans small.2.2.1, infeasible.trans small.2.2.2⟩
      have twice (row : Row Rat) : (row.without column).without column = row.without column :=
        Row.without_of_absent (by rw [Row.get?_without, if_pos rfl])
      rw [List.foldl_cons, rows, get?_dropTerm]
      by_cases same : key = k
      · subst same
        rw [if_pos rfl, if_pos (List.mem_cons_self ..)]
        split
        · cases t.rows.get? key with
          | none => rfl
          | some row => rw [Option.map_some, Option.map_some, twice]
        · rfl
      · rw [if_neg same]
        simp only [List.mem_cons, Ne.symm same, false_or]

section

variable (wf : t.WellFormed)
include wf

theorem get?_removeColumn (column key : Column) :
    (t.removeColumn column).rows.get? key = (t.rows.get? key).map (·.without column) := by
  have rows := (dropTerms_frame (t.rowsWith column) column
    { t with index := t.index.erase column }).1 key
  rw [removeColumn, rows_unmarkParametric, rows_unmarkBasic]
  refine rows.trans ?_
  split
  · rfl
  · next absent =>
      rw [mem_rowsWith, wf.listed] at absent
      cases found : t.rows.get? key with
      | none => rfl
      | some row =>
          have none : row.terms.get? column = none := by
            rw [← Option.not_isSome_iff_eq_none]
            exact fun present => absent (mentions_iff.2 ⟨row, found, present⟩)
          rw [Option.map_some, Row.without_of_absent none]

omit wf in
theorem index_removeColumn (t : Tableau Rat) (column : Column) :
    (t.removeColumn column).index = t.index.erase column := by
  rw [removeColumn, index_unmarkParametric, index_unmarkBasic]
  exact (dropTerms_frame (t.rowsWith column) column { t with index := t.index.erase column }).2.1

omit wf in
theorem tolerance_removeColumn (t : Tableau Rat) (column : Column) :
    (t.removeColumn column).tolerance = t.tolerance := by
  rw [removeColumn, tolerance_unmarkParametric, tolerance_unmarkBasic]
  exact (dropTerms_frame (t.rowsWith column) column { t with index := t.index.erase column }).2.2.1

omit wf in
theorem infeasible_removeColumn (t : Tableau Rat) (column : Column) :
    (t.removeColumn column).infeasible = t.infeasible := by
  rw [removeColumn, infeasible_unmarkParametric, infeasible_unmarkBasic]
  exact (dropTerms_frame (t.rowsWith column) column
    { t with index := t.index.erase column }).2.2.2.2

omit wf in
theorem mem_basicVariables_removeColumn {v : Variable} :
    v ∈ (t.removeColumn column).basicVariables ↔
      column ≠ .external v ∧ v ∈ t.basicVariables := by
  rw [removeColumn, basicVariables_unmarkParametric, mem_basicVariables_unmarkBasic,
    (dropTerms_frame (t.rowsWith column) column { t with index := t.index.erase column }).2.2.2.1]

theorem mentions_removeColumn :
    (t.removeColumn column).Mentions key c ↔ c ≠ column ∧ t.Mentions key c := by
  rw [mentions_iff, mentions_iff, get?_removeColumn wf]
  constructor
  · rintro ⟨row', found', present⟩
    obtain ⟨row, found, rfl⟩ := Option.map_eq_some_iff.1 found'
    rw [Sorted.Map.contains, Row.get?_without] at present
    split at present
    · cases present
    · next different => exact ⟨Ne.symm different, row, found, present⟩
  · rintro ⟨different, row, found, present⟩
    refine ⟨row.without column, by rw [found, Option.map_some], ?_⟩
    rw [Sorted.Map.contains, Row.get?_without, if_neg (Ne.symm different)]
    exact present

/-- Striking out a column that is basic changes nothing, since no row mentions it. -/
theorem WellFormed.removeColumn_of_basic (basic : (t.rows.get? column).isSome)
    (symbol : column.isExternal = false) : t.removeColumn column = t := by
  have unindexed := wf.separate column basic
  have index : t.index.erase column = t.index := Sorted.Map.ext_get? fun c => by
    rw [Sorted.Map.get?_erase]
    split
    · next same => rw [← same, unindexed]
    · rfl
  have unmentioned : t.rowsWith column = [] := by
    rw [rowsWith, unindexed]
    rfl
  cases column with
  | external v => cases symbol
  | symbol s =>
      rw [removeColumn, unmentioned, index]
      rfl

/-- Striking out a column that is not basic keeps a tableau well formed. -/
theorem WellFormed.removeColumn (outside : t.rows.get? column = none) :
    (t.removeColumn column).WellFormed where
  tolerant := by rw [tolerance_removeColumn]; exact wf.tolerant
  listed key c := by
    rw [Lists, index_removeColumn, Sorted.Map.get?_erase, mentions_removeColumn wf, ← wf.listed]
    by_cases same : column = c
    · subst same
      simp
    · rw [if_neg same]
      exact (and_iff_right (Ne.symm same)).symm
  separate c basic := by
    rw [get?_removeColumn wf, Option.isSome_map] at basic
    rw [index_removeColumn, Sorted.Map.get?_erase]
    split
    · rfl
    · exact wf.separate c basic
  nonzero key c := by
    rw [term?, get?_removeColumn wf]
    cases found : t.rows.get? key with
    | none => simp
    | some row =>
        have kept := wf.nonzero key c
        rw [term?, found, Option.bind_some] at kept
        rw [Option.map_some, Option.bind_some, Row.get?_without]
        split
        · simp
        · exact kept
  plain c present := by
    rw [index_removeColumn, Sorted.Map.get?_erase] at present
    split at present
    · cases present
    · exact wf.plain c present
  basic v := by
    rw [mem_basicVariables_removeColumn, wf.basic, get?_removeColumn wf, Option.isSome_map]
    refine and_iff_right_of_imp fun basic same => ?_
    rw [← same, outside] at basic
    cases basic

end

/-! ### Moving a constant -/

theorem get?_setConstant (t : Tableau Rat) (column : Column) (constant : Rat) (key : Column) :
    (t.setConstant column constant).rows.get? key =
      if column = key then (t.rows.get? key).map fun row => { row with constant }
      else t.rows.get? key := by
  unfold setConstant
  cases found : t.rows.get? column with
  | none =>
      dsimp only
      split
      · next same => rw [← same, found, Option.map_none]
      · rfl
  | some row =>
      dsimp only
      rw [Sorted.Map.get?_insert]
      split
      · next same => rw [← same, found, Option.map_some]
      · rfl

theorem setConstant_eq (t : Tableau Rat) (column : Column) (constant : Rat) :
    ∃ rows, t.setConstant column constant = { t with rows } := by
  unfold setConstant
  split
  · exact ⟨t.rows, rfl⟩
  · exact ⟨_, rfl⟩

@[simp] theorem tolerance_setConstant (t : Tableau Rat) (column : Column) (constant : Rat) :
    (t.setConstant column constant).tolerance = t.tolerance := by
  obtain ⟨rows, same⟩ := t.setConstant_eq column constant
  rw [same]

@[simp] theorem index_setConstant (t : Tableau Rat) (column : Column) (constant : Rat) :
    (t.setConstant column constant).index = t.index := by
  obtain ⟨rows, same⟩ := t.setConstant_eq column constant
  rw [same]

@[simp] theorem infeasible_setConstant (t : Tableau Rat) (column : Column) (constant : Rat) :
    (t.setConstant column constant).infeasible = t.infeasible := by
  obtain ⟨rows, same⟩ := t.setConstant_eq column constant
  rw [same]

theorem WellFormed.setConstant (wf : t.WellFormed) (column : Column) (constant : Rat) :
    (t.setConstant column constant).WellFormed := by
  obtain ⟨rows, same⟩ := t.setConstant_eq column constant
  refine wf.of_terms (by rw [same]) (by rw [same]) (by rw [same]) fun key => ?_
  rw [get?_setConstant]
  split
  · rw [Option.map_map]
    rfl
  · rfl

/-! ### Adding to an objective -/

/-- What adding to one coefficient of a row changes. -/
private theorem addToCoefficient_frame (exact : t.tolerance = some e)
    (found : t.rows.get? key = some row) (column : Column) (k : Rat) :
    let changed := t.addToCoefficient key column k
    ∃ row' : Row Rat, changed.rows = t.rows.insert key row' ∧ row'.constant = row.constant ∧
      (∀ c, row'.terms.get? c =
        if column = c then
          if Scalar.nearZero e (row.coefficient column + k) then none
          else some (row.coefficient column + k)
        else row.terms.get? c) ∧
      changed.tolerance = t.tolerance ∧ changed.infeasible = t.infeasible ∧
      changed.basicVariables = t.basicVariables ∧
      changed.parametricVariables = t.parametricVariables ∧
      (∀ r c, changed.Lists r c ↔
        if r = key ∧ c = column then changed.Mentions r c else t.Lists r c) ∧
      (∀ c, (changed.index.get? c).isSome → c = column ∨ (t.index.get? c).isSome) ∧
      ∀ c, (t.index.get? c).isSome → (changed.index.get? c).isSome := by
  have old : (t.term? key column).getD 0 = row.coefficient column := by
    rw [term?, found]
    rfl
  dsimp only
  unfold addToCoefficient
  rw [old]
  dsimp only
  have near : t.nearZero (row.coefficient column + k) =
      Scalar.nearZero e (row.coefficient column + k) := by rw [nearZero, exact, Option.any_some]
  rw [near]
  by_cases small : Scalar.nearZero e (row.coefficient column + k) = true
  · have drop : t.dropTerm key column =
        { t with rows := t.rows.insert key (row.without column) } := by
      rw [dropTerm, found]
      rfl
    rw [if_pos small, drop]
    refine ⟨row.without column, by simp, rfl, fun c => ?_, ?_, by simp, by simp, by simp,
      fun r c => ?_,
      fun c present => ?_, fun c before => indexed_unlink.2 before⟩
    · rw [Row.get?_without, if_pos small]
    · unfold unlink
      split <;> rfl
    · rw [lists_unlink]
      by_cases here : r = key ∧ c = column
      · obtain ⟨rfl, rfl⟩ := here
        rw [if_pos ⟨rfl, rfl⟩]
        refine iff_of_false (fun listed => listed.2 ⟨rfl, rfl⟩) fun mentioned => ?_
        rw [mentions_congr (rows_unlink _ _ _),
          mentions_iff_contains (Sorted.Map.get?_insert_self _ _ _),
          Sorted.Map.contains, Row.get?_without, if_pos rfl] at mentioned
        cases mentioned
      · rw [if_neg here]
        exact and_iff_left here
    · have before := indexed_unlink.1 present
      exact .inr before
  · have set : t.setTerm key column (row.coefficient column + k) =
        { t with
          rows := t.rows.insert key
            { row with terms := row.terms.insert column (row.coefficient column + k) } } := by
      rw [setTerm, found]
    rw [if_neg small, set]
    refine ⟨{ row with terms := row.terms.insert column (row.coefficient column + k) }, rfl, rfl,
      fun c => ?_, rfl, rfl, rfl, rfl, fun r c => ?_, fun c present => indexed_link.1 present,
      fun c before => indexed_link.2 (.inr before)⟩
    · rw [Sorted.Map.get?_insert, if_neg small]
    · rw [lists_link]
      by_cases here : r = key ∧ c = column
      · obtain ⟨rfl, rfl⟩ := here
        rw [if_pos ⟨rfl, rfl⟩]
        have present : (row.terms.insert c (row.coefficient c + k)).contains c = true := by
          rw [Sorted.Map.contains, Sorted.Map.get?_insert_self]
          rfl
        exact iff_of_true (.inl ⟨rfl, rfl⟩)
          ((mentions_iff_contains (Sorted.Map.get?_insert_self _ _ _)).2 present)
      · rw [if_neg here]
        exact or_iff_right here

/-- What a tableau keeps while an objective is added to: everything but one row. -/
structure Apart (t t' : Tableau Rat) (key : Column) : Prop where
  others : ∀ r, r ≠ key → t'.rows.get? r = t.rows.get? r
  stored : (t'.rows.get? key).isSome
  tolerance : t'.tolerance = t.tolerance
  infeasible : t'.infeasible = t.infeasible
  basics : t'.basicVariables = t.basicVariables
  parametrics : t'.parametricVariables = t.parametricVariables
  indexed : ∀ c, (t.index.get? c).isSome → (t'.index.get? c).isSome

theorem Apart.trans {t'' : Tableau Rat} (first : t.Apart t' key) (second : t'.Apart t'' key) :
    t.Apart t'' key where
  others r different := (second.others r different).trans (first.others r different)
  stored := second.stored
  tolerance := second.tolerance.trans first.tolerance
  infeasible := second.infeasible.trans first.infeasible
  basics := second.basics.trans first.basics
  parametrics := second.parametrics.trans first.parametrics
  indexed c before := second.indexed c (first.indexed c before)

/-- Adding to one coefficient of an objective. -/
private theorem addToCoefficient_wellFormed (wf : t.WellFormed) (exact : t.tolerance = some e)
    (found : t.rows.get? key = some row) (outside : t.rows.get? column = none)
    (noObjective : column.isObjective = false) (k : Rat) :
    let changed := t.addToCoefficient key column k
    changed.WellFormed ∧ t.Apart changed key ∧
      (e = 0 → ∀ row', changed.rows.get? key = some row' →
        ∀ σ, row'.eval σ = row.eval σ + k * σ column) ∧
      ∀ c, (changed.index.get? c).isSome → c = column ∨ (t.index.get? c).isSome := by
  obtain ⟨row', rows, constant, terms, tolerance, infeasible, basics, parametrics, lists,
      indexed, kept⟩ :=
    addToCoefficient_frame exact found column k
  dsimp only
  generalize t.addToCoefficient key column k = changed at *
  have stored : changed.rows.get? key = some row' := by rw [rows, Sorted.Map.get?_insert_self]
  have others : ∀ r, r ≠ key → changed.rows.get? r = t.rows.get? r := fun r different => by
    rw [rows, Sorted.Map.get?_insert, if_neg (Ne.symm different)]
  have presence : ∀ r, (changed.rows.get? r).isSome = (t.rows.get? r).isSome := by
    intro r
    by_cases same : r = key
    · rw [same, stored, found]
      rfl
    · rw [others r same]
  refine ⟨⟨by rw [tolerance]; exact wf.tolerant, fun r c => ?_, fun c basic => ?_, fun r c => ?_,
    fun c present => ?_, fun v => by rw [basics, presence]; exact wf.basic v⟩,
    ⟨others, by rw [stored]; rfl, tolerance, infeasible, basics, parametrics, kept⟩,
    fun zero row'' found'' σ => ?_, indexed⟩
  · rw [lists]
    split
    · rfl
    · next away =>
        rw [wf.listed, Mentions, Mentions, term?, term?]
        by_cases same : r = key
        · subst same
          have different : column ≠ c := fun equal => away ⟨rfl, equal.symm⟩
          rw [stored, found, Option.bind_some, Option.bind_some, terms, if_neg different]
        · rw [others r same]
  · rw [presence] at basic
    rw [← Option.not_isSome_iff_eq_none]
    intro present
    rcases indexed c present with rfl | before
    · rw [outside] at basic
      cases basic
    · rw [wf.separate c basic] at before
      cases before
  · by_cases same : r = key
    · subst same
      have before := wf.nonzero r c
      rw [term?, found, Option.bind_some] at before
      rw [term?, stored, Option.bind_some, terms]
      split
      · split
        · simp
        · next far =>
            intro zero
            rw [Option.some.inj zero] at far
            obtain ⟨e', exact', nonneg⟩ := wf.tolerant
            obtain rfl := Option.some.inj (exact.symm.trans exact')
            exact far (Scalar.nearZero_of_zero nonneg)
      · exact before
    · rw [term?, others r same]
      exact wf.nonzero r c
  · rcases indexed c present with rfl | before
    · exact noObjective
    · exact wf.plain c before
  · subst zero
    rw [stored] at found''
    cases found''
    have changedTo : row'.coefficient column = row.coefficient column + k := by
      rw [Row.coefficient, terms, if_pos rfl]
      split
      · next near => exact ((Scalar.nearZero_zero _).1 near).symm
      · rfl
    rw [Row.eval_update row' row column (row.coefficient column + k) constant changedTo
      (fun c different => by rw [Row.coefficient, Row.coefficient, terms, if_neg (Ne.symm different)])]
    ring

/-- Adding several terms to an objective. -/
private theorem addToCoefficients_wellFormed (wf : t.WellFormed) (exact : t.tolerance = some e)
    (found : t.rows.get? key = some row) (factor : Rat) (terms : List (Column × Rat))
    (outside : ∀ term ∈ terms, t.rows.get? term.1 = none ∧ term.1.isObjective = false) :
    let changed := terms.foldl (fun t term => t.addToCoefficient key term.1 (factor * term.2)) t
    changed.WellFormed ∧ t.Apart changed key ∧
      (e = 0 → ∀ row', changed.rows.get? key = some row' → ∀ σ, row'.eval σ =
        row.eval σ + factor * (terms.map fun term => term.2 * σ term.1).sum) ∧
      ∀ c, (changed.index.get? c).isSome → c ∈ terms.map (·.1) ∨ (t.index.get? c).isSome := by
  induction terms generalizing t row with
  | nil =>
      refine ⟨wf, ⟨fun _ _ => rfl, ?_, rfl, rfl, rfl, rfl, fun _ => id⟩, fun _ row' found' σ => ?_,
        fun c => .inr⟩
      · rw [List.foldl_nil, found]
        rfl
      · rw [List.foldl_nil, found] at found'
        cases found'
        simp
  | cons term rest ih =>
      obtain ⟨absent, plain⟩ := outside term (List.mem_cons_self ..)
      obtain ⟨wf', apart, value, indexed⟩ :=
        addToCoefficient_wellFormed wf exact found absent plain (factor * term.2)
      simp only [List.foldl_cons]
      generalize t.addToCoefficient key term.1 (factor * term.2) = next at *
      obtain ⟨row', found'⟩ := Option.isSome_iff_exists.1 apart.stored
      have outside' : ∀ term ∈ rest,
          next.rows.get? term.1 = none ∧ term.1.isObjective = false := by
        intro term member
        obtain ⟨absent, plain⟩ := outside term (List.mem_cons_of_mem _ member)
        refine ⟨?_, plain⟩
        rw [apart.others term.1, absent]
        rintro rfl
        rw [found] at absent
        cases absent
      obtain ⟨wf'', apart', value', indexed'⟩ :=
        ih wf' (apart.tolerance.trans exact) found' outside'
      refine ⟨wf'', apart.trans apart', fun zero row'' found'' σ => ?_, fun c present => ?_⟩
      · rw [value' zero row'' found'' σ, value zero row' found' σ, List.map_cons, List.sum_cons]
        ring
      · rw [List.map_cons, List.mem_cons]
        rcases indexed' c present with inRest | present
        · exact .inl (.inr inRest)
        · rcases indexed c present with same | before
          · exact .inl (.inl same)
          · exact .inr before

section

variable (wf : t.WellFormed) {objective : Column} (found : t.rows.get? objective = some row)
include wf found

/-- Adding a column to an objective changes that row alone, and by the value of the column. -/
private theorem addToObjective_frame (plain : column.isObjective = false) (k : Rat) :
    let changed := t.addToObjective column k objective
    changed.WellFormed ∧ t.Apart changed objective ∧
      (t.tolerance = some 0 → ∀ row', changed.rows.get? objective = some row' →
        ∀ σ, row'.eval σ = row.eval σ + k * t.extend σ column) ∧
      ∀ c, (changed.index.get? c).isSome → c = column ∨ (t.index.get? c).isSome := by
  obtain ⟨e, tolerance, -⟩ := wf.tolerant
  have basic : t.withObjective objective = t := by
    rw [withObjective, if_pos]
    rw [isBasic, Sorted.Map.contains, found]
    rfl
  dsimp only
  unfold addToObjective
  rw [basic]
  dsimp only
  cases inside : t.rows.get? column with
  | none =>
      obtain ⟨wf', apart, value, indexed⟩ :=
        addToCoefficient_wellFormed wf tolerance found inside plain k
      refine ⟨wf', apart, fun zero row' found' σ => ?_, indexed⟩
      rw [value (Option.some.inj (tolerance.symm.trans zero)) row' found' σ, extend_of_not_basic inside]
  | some basicRow =>
      have shifted : t.shiftConstant objective (k * basicRow.constant) =
          t.setConstant objective (row.constant + k * basicRow.constant) := by
        rw [shiftConstant, found]
      have moved : (t.setConstant objective (row.constant + k * basicRow.constant)).rows.get?
          objective = some { row with constant := row.constant + k * basicRow.constant } := by
        rw [get?_setConstant, if_pos rfl, found, Option.map_some]
      have same : ∀ r, r ≠ objective →
          (t.setConstant objective (row.constant + k * basicRow.constant)).rows.get? r =
            t.rows.get? r := fun r away => by rw [get?_setConstant, if_neg (Ne.symm away)]
      have outside : ∀ term ∈ basicRow.terms.toList,
          (t.setConstant objective (row.constant + k * basicRow.constant)).rows.get? term.1 = none ∧
            term.1.isObjective = false := by
        intro term member
        have mentioned : t.Mentions column term.1 := mentions_iff.2 ⟨basicRow, inside,
          Sorted.Map.mem_keys_iff_contains.1 (List.mem_map_of_mem member)⟩
        refine ⟨?_, wf.noObjective column term.1 mentioned⟩
        have absent := wf.not_basic mentioned
        rw [same term.1, absent]
        rintro equal
        rw [equal, found] at absent
        cases absent
      obtain ⟨wf', apart, value, indexed⟩ :=
        addToCoefficients_wellFormed (wf.setConstant objective _)
          (by rw [tolerance_setConstant, tolerance]) moved k basicRow.terms.toList outside
      have stored : ∀ c, c ∈ basicRow.terms.toList.map (·.1) → t.Mentions column c := by
        intro c member
        exact mentions_iff.2 ⟨basicRow, inside, Sorted.Map.mem_keys_iff_contains.1 member⟩
      simp only [Sorted.Map.foldl]
      rw [shifted]
      obtain ⟨rows, moves⟩ := t.setConstant_eq objective (row.constant + k * basicRow.constant)
      refine ⟨wf', ⟨fun r away => ?_, apart.stored, ?_, ?_, ?_, ?_, fun c before => ?_⟩,
        fun zero row' found' σ => ?_, fun c present => ?_⟩
      · rw [apart.others r away, same r away]
      · rw [apart.tolerance, tolerance_setConstant]
      · rw [apart.infeasible, infeasible_setConstant]
      · rw [apart.basics, moves]
      · rw [apart.parametrics, moves]
      · exact apart.indexed c (by rwa [index_setConstant])
      · have sum : basicRow.eval σ =
            basicRow.constant + (basicRow.terms.toList.map fun term => term.2 * σ term.1).sum :=
          Row.foldl_terms _ _ _
        have raised : ({ row with constant := row.constant + k * basicRow.constant } :
            Row Rat).eval σ = row.eval σ + k * basicRow.constant :=
          Row.eval_addConstant row (k * basicRow.constant) σ
        rw [value (Option.some.inj (tolerance.symm.trans zero)) row' found' σ,
          extend_of_basic inside, sum, raised]
        ring
      · rcases indexed c present with inTerms | before
        · exact .inr (indexed_of_lists ((wf.listed column c).2 (stored c inTerms)))
        · exact .inr (by rwa [index_setConstant] at before)

theorem WellFormed.addToObjective (plain : column.isObjective = false) (k : Rat) :
    (t.addToObjective column k objective).WellFormed := (addToObjective_frame wf found plain k).1

theorem WellFormed.apart_addToObjective (plain : column.isObjective = false) (k : Rat) :
    t.Apart (t.addToObjective column k objective) objective :=
  (addToObjective_frame wf found plain k).2.1

theorem WellFormed.indexed_addToObjective (plain : column.isObjective = false) (k : Rat)
    (present : ((t.addToObjective column k objective).index.get? c).isSome) :
    c = column ∨ (t.index.get? c).isSome :=
  (addToObjective_frame wf found plain k).2.2.2 c present

omit wf in
theorem Exact.addToObjective (exact : t.Exact) (plain : column.isObjective = false) (k : Rat) :
    (t.addToObjective column k objective).Exact :=
  ⟨exact.toWellFormed.addToObjective found plain k,
    (exact.apart_addToObjective found plain k).tolerance.trans exact.exact⟩

/-- Where a column outside the basis is added, the objective charges for that column what was added. -/
theorem WellFormed.coefficient_addToObjective {row' : Row Rat} (exact : t.tolerance = some 0)
    (outside : t.rows.get? column = none) (plain : column.isObjective = false) (k : Rat)
    (found' : (t.addToObjective column k objective).rows.get? objective = some row') (c : Column) :
    row'.coefficient c = row.coefficient c + if c = column then k else 0 := by
  have value := (addToObjective_frame wf found plain k).2.2.1 exact row' found'
  simp only [extend_of_not_basic outside] at value
  -- The coefficient is what the value gains where the column alone is one.
  have gained := value (Function.update (fun _ => 0) c 1)
  have start := value fun _ => 0
  rw [Row.eval_update_assignment, Row.eval_update_assignment] at gained
  by_cases same : c = column
  · subst same
    rw [Function.update_self] at gained
    rw [if_pos rfl]
    linarith
  · rw [Function.update_of_ne (Ne.symm same)] at gained
    rw [if_neg same]
    linarith

omit wf in
/-- An objective that a column is added to is shifted by the column. -/
theorem Exact.holds_addToObjective (exact : t.Exact) (plain : column.isObjective = false)
    (different : column ≠ objective) (k : Rat) {σ : Column → Rat} :
    (t.addToObjective column k objective).Holds σ ↔
      t.Holds (Function.update σ objective (σ objective - k * σ column)) := by
  obtain ⟨-, apart, value, -⟩ := addToObjective_frame exact.toWellFormed found plain k
  replace value := value exact.exact
  generalize t.addToObjective column k objective = changed at *
  obtain ⟨row', found'⟩ := Option.isSome_iff_exists.1 apart.stored
  have basic : (t.rows.get? objective).isSome := by rw [found]; rfl
  have others : ∀ key row'', key ≠ objective → t.rows.get? key = some row'' →
      (Function.update σ objective (σ objective - k * σ column) key =
        row''.eval (Function.update σ objective (σ objective - k * σ column)) ↔
          σ key = row''.eval σ) := by
    intro key row'' away found''
    rw [Function.update_of_ne away, exact.eval_update_basic found'' basic]
  have column_eq (holds : ∀ key row'', key ≠ objective → t.rows.get? key = some row'' →
      σ key = row''.eval σ) : t.extend σ column = σ column := by
    cases inside : t.rows.get? column with
    | none => exact extend_of_not_basic inside σ
    | some basicRow => rw [extend_of_basic inside, holds column basicRow different inside]
  constructor
  · intro holds key row'' found''
    have kept : ∀ key row'', key ≠ objective → t.rows.get? key = some row'' →
        σ key = row''.eval σ := fun key row'' away found'' =>
      holds key row'' ((apart.others key away).trans found'')
    by_cases same : key = objective
    · subst same
      rw [found] at found''
      cases found''
      rw [Function.update_self, exact.eval_update_basic found basic, holds _ row' found',
        value row' found', column_eq kept]
      ring
    · exact (others key row'' same found'').2 (kept key row'' same found'')
  · intro holds key row'' found''
    have kept : ∀ key row'', key ≠ objective → t.rows.get? key = some row'' →
        σ key = row''.eval σ := fun key row'' away found'' =>
      (others key row'' away found'').1 (holds key row'' found'')
    by_cases same : key = objective
    · subst same
      rw [found'] at found''
      cases found''
      have own := holds _ row found
      rw [Function.update_self, exact.eval_update_basic found basic] at own
      rw [value row' found', column_eq kept, ← own]
      ring
    · exact kept key row'' same ((apart.others key same).symm.trans found'')

end

/-! ### What changes of columns and constants mean -/

section

variable (exact : t.Exact) {σ : Column → Rat}
include exact

theorem Exact.removeColumn (outside : t.rows.get? column = none) :
    (t.removeColumn column).Exact :=
  ⟨exact.toWellFormed.removeColumn outside, (tolerance_removeColumn t column).trans exact.exact⟩

/-- A column that is struck out counts as zero. -/
theorem Exact.holds_removeColumn (outside : t.rows.get? column = none) :
    (t.removeColumn column).Holds σ ↔ t.Holds (Function.update σ column 0) := by
  have rows := get?_removeColumn exact.toWellFormed column
  have different : ∀ key row, t.rows.get? key = some row → key ≠ column := by
    rintro key row found rfl
    rw [outside] at found
    cases found
  constructor
  · intro holds key row found
    rw [Function.update_of_ne (different key row found),
      holds key (row.without column) (by rw [rows, found, Option.map_some]), Row.eval_without]
  · intro holds key row' found'
    rw [rows] at found'
    obtain ⟨row, found, rfl⟩ := Option.map_eq_some_iff.1 found'
    rw [Row.eval_without, ← holds key row found, Function.update_of_ne (different key row found)]

/-- The basic solution does not see columns outside the basis. -/
theorem Exact.basicSolution_removeColumn (column : Column) :
    (t.removeColumn column).basicSolution = t.basicSolution := by
  funext c
  cases found : t.rows.get? c with
  | none =>
      rw [basicSolution_of_not_basic found, basicSolution_of_not_basic]
      rw [get?_removeColumn exact.toWellFormed, found, Option.map_none]
  | some row =>
      have left : (t.removeColumn column).rows.get? c = some (row.without column) := by
        rw [get?_removeColumn exact.toWellFormed, found, Option.map_some]
      rw [basicSolution_of_basic found, basicSolution_of_basic left]
      rfl

theorem Exact.setConstant (column : Column) (constant : Rat) :
    (t.setConstant column constant).Exact :=
  ⟨exact.toWellFormed.setConstant column constant, by rw [tolerance_setConstant, exact.exact]⟩

/-- Moving the constant of a row shifts the values of its column. -/
theorem Exact.holds_setConstant (found : t.rows.get? column = some row) (constant : Rat) :
    (t.setConstant column constant).Holds σ ↔
      t.Holds (Function.update σ column (σ column + (row.constant - constant))) := by
  have basic : (t.rows.get? column).isSome := by rw [found]; rfl
  have moved (row : Row Rat) : ({ row with constant } : Row Rat).eval σ =
      row.eval σ + (constant - row.constant) := by
    rw [← Row.eval_addConstant]
    refine congrArg (fun x => ({ row with constant := x } : Row Rat).eval σ) ?_
    ring
  constructor
  · intro holds key row' found'
    rw [exact.eval_update_basic found' basic]
    by_cases same : key = column
    · subst same
      rw [found] at found'
      cases found'
      rw [Function.update_self,
        holds key { row with constant } (by rw [get?_setConstant, if_pos rfl, found]; rfl), moved]
      ring
    · rw [Function.update_of_ne same]
      exact holds key row' (by rw [get?_setConstant, if_neg (Ne.symm same), found'])
  · intro holds key row' found'
    rw [get?_setConstant] at found'
    split at found'
    · next same =>
        subst same
        rw [found, Option.map_some] at found'
        cases found'
        have own := holds column row found
        rw [Function.update_self, exact.eval_update_basic found basic] at own
        rw [moved]
        linarith
    · next different =>
        have own := holds key row' found'
        rwa [exact.eval_update_basic found' basic, Function.update_of_ne (Ne.symm different)] at own

end

/-! ### Rows that await repair -/

/-- The tableau with other rows recorded as awaiting repair. -/
def awaiting (t : Tableau Rat) (rest : Sorted.Set Column) : Tableau Rat :=
  { t with infeasible := rest }

@[simp] theorem rows_awaiting (t : Tableau Rat) (rest : Sorted.Set Column) :
    (t.awaiting rest).rows = t.rows := rfl

@[simp] theorem index_awaiting (t : Tableau Rat) (rest : Sorted.Set Column) :
    (t.awaiting rest).index = t.index := rfl

@[simp] theorem infeasible_awaiting (t : Tableau Rat) (rest : Sorted.Set Column) :
    (t.awaiting rest).infeasible = rest := rfl

/-- Only what may not become negative awaits repair. -/
def Recorded (t : Tableau Rat) : Prop := ∀ key ∈ t.infeasible, key.isRestricted = true

/-- What awaits repair has no part in what a tableau means. -/
theorem Exact.awaiting (exact : t.Exact) (rest : Sorted.Set Column) : (t.awaiting rest).Exact :=
  ⟨exact.toWellFormed.of_terms rfl rfl rfl fun _ => rfl, exact.exact⟩

end Tableau

end SoftSimplex
