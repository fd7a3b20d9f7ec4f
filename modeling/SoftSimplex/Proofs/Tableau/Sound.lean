import SoftSimplex.Proofs.Tableau.Scope

/-!
Tableaus that keep account of the variables.

A sound tableau is well formed, knows every variable that it mentions as one of those outside the basis
and no basic one as such, and lets only rows that it has await repair (`Sound`). A variable was met if it
is known to be basic or to be outside the basis (`Met`). This module says what the operations do to the
variables outside the basis, and that they keep tableaus sound, for every tolerance.
-/

namespace SoftSimplex.Tableau

variable {t : Tableau Rat} {key column entry exit c : Column} {row solved : Row Rat} {v : Variable}

/-- The parts of a tableau fit together, and so do the sets of variables and of rows beside them. -/
structure Sound (t : Tableau Rat) : Prop extends t.WellFormed where
  /-- A variable that is indexed, and so one that is mentioned, is known to be outside the basis. -/
  seen : ∀ v, (t.index.get? (.external v)).isSome → v ∈ t.parametricVariables
  /-- No basic variable is known to be outside the basis. -/
  disjoint : ∀ v ∈ t.basicVariables, v ∉ t.parametricVariables
  /-- What awaits repair is a restricted row. -/
  recorded : ∀ key ∈ t.infeasible, key.isRestricted = true
  present : ∀ key ∈ t.infeasible, (t.rows.get? key).isSome

/-- A variable is known to be basic, or to be outside the basis. -/
def Met (t : Tableau Rat) (v : Variable) : Prop :=
  v ∈ t.basicVariables ∨ v ∈ t.parametricVariables

/-! ### The variables outside the basis -/

theorem mem_parametricVariables_markParametric :
    v ∈ (t.markParametric c).parametricVariables ↔ c = .external v ∨ v ∈ t.parametricVariables := by
  cases c with
  | external w => simp [markParametric, Sorted.Set.mem_insert, eq_comm]
  | symbol s => simp [markParametric]

@[simp] theorem parametricVariables_markBasic (t : Tableau Rat) (column : Column) :
    (t.markBasic column).parametricVariables = t.parametricVariables := by cases column <;> rfl

@[simp] theorem parametricVariables_unmarkBasic (t : Tableau Rat) (column : Column) :
    (t.unmarkBasic column).parametricVariables = t.parametricVariables := by cases column <;> rfl

@[simp] theorem parametricVariables_setTerm (t : Tableau Rat) (key column : Column) (k : Rat) :
    (t.setTerm key column k).parametricVariables = t.parametricVariables := by
  unfold setTerm
  split <;> rfl

@[simp] theorem parametricVariables_dropTerm (t : Tableau Rat) (key column : Column) :
    (t.dropTerm key column).parametricVariables = t.parametricVariables := by
  unfold dropTerm
  split <;> rfl

@[simp] theorem parametricVariables_setConstant (t : Tableau Rat) (column : Column) (k : Rat) :
    (t.setConstant column k).parametricVariables = t.parametricVariables := by
  obtain ⟨rows, same⟩ := t.setConstant_eq column k
  rw [same]

@[simp] theorem parametricVariables_substituteTerm (t : Tableau Rat) (key column : Column)
    (multiplier k : Rat) :
    (t.substituteTerm key multiplier column k).parametricVariables = t.parametricVariables := by
  unfold substituteTerm
  split
  · simp [link]
  · dsimp only
    split <;> simp

/-- What no step of a loop changes the loop does not change. -/
private theorem parametricVariables_foldl {α : Type} {f : Tableau Rat → α → Tableau Rat}
    (each : ∀ t a, (f t a).parametricVariables = t.parametricVariables) (l : List α)
    (t : Tableau Rat) : (l.foldl f t).parametricVariables = t.parametricVariables := by
  induction l generalizing t with
  | nil => rfl
  | cons a rest ih => rw [List.foldl_cons, ih, each]

@[simp] theorem parametricVariables_substituteRow (t : Tableau Rat) (column key : Column)
    (solved : Row Rat) :
    (substituteRow column solved t key).parametricVariables = t.parametricVariables := by
  unfold substituteRow
  cases t.rows.get? key with
  | none => rfl
  | some row =>
      have replaced := parametricVariables_foldl
        (f := fun t (term : Column × Rat) =>
          t.substituteTerm key (row.coefficient column) term.1 term.2)
        (fun t term => by simp) solved.terms.toList
        { t with rows := t.rows.insert key
                  ⟨row.terms.erase column,
                    row.constant + row.coefficient column * solved.constant⟩ }
      simp only [markIfRestricted, markIfNegative, markInfeasible]
      split
      · split <;> exact replaced
      · exact replaced

theorem mem_parametricVariables_insertRow :
    v ∈ (t.insertRow key row).parametricVariables ↔
      row.terms.contains (.external v) = true ∨ v ∈ t.parametricVariables := by
  have linked (columns : List Column) (t : Tableau Rat) :
      v ∈ (columns.foldl (fun t c => (t.link c key).markParametric c) t).parametricVariables ↔
        .external v ∈ columns ∨ v ∈ t.parametricVariables := by
    induction columns generalizing t with
    | nil => simp
    | cons c rest ih =>
        rw [List.foldl_cons, ih, mem_parametricVariables_markParametric, List.mem_cons,
          eq_comm (a := c), or_assoc, or_left_comm]
        rfl
  rw [insertRow, parametricVariables_markBasic, linked, Sorted.Map.mem_keys_iff_contains]

@[simp] theorem parametricVariables_removeRow (t : Tableau Rat) (key : Column) :
    (t.removeRow key).parametricVariables = t.parametricVariables := by
  rw [removeRow, parametricVariables_unmarkBasic]
  cases t.rows.get? key with
  | none => rfl
  | some row => exact parametricVariables_foldl (fun t c => parametricVariables_unlink t c key) _ _

theorem parametricVariables_removeColumn (t : Tableau Rat) (symbol : column.isExternal = false) :
    (t.removeColumn column).parametricVariables = t.parametricVariables := by
  cases column with
  | external v => cases symbol
  | symbol s =>
      exact parametricVariables_foldl
        (fun t key => parametricVariables_dropTerm t key (.symbol s)) _ _

theorem mem_parametricVariables_introduce (apart : solved.terms.get? column = none) :
    v ∈ (t.introduce column solved).parametricVariables ↔
      solved.terms.contains (.external v) = true ∨
        (v ∈ t.parametricVariables ∧ column ≠ .external v) := by
  have entered (t : Tableau Rat) : v ∈ (t.enterBasis column).parametricVariables ↔
      v ∈ t.parametricVariables ∧ column ≠ .external v := by
    cases column with
    | external w =>
        simp [enterBasis, markBasic, unmarkParametric, Sorted.Set.mem_erase, and_comm, eq_comm]
    | symbol s => simp [enterBasis, markBasic, unmarkParametric]
  rw [introduce, mem_parametricVariables_insertRow, substituteOut, entered,
    parametricVariables_foldl fun t key => parametricVariables_substituteRow t column key solved]

/-! ### Operations on sound tableaus -/

namespace Sound

variable (sound : t.Sound)
include sound

/-- A basic variable has a row, and a variable outside the basis has none. -/
theorem not_basic (outside : v ∈ t.parametricVariables) : t.rows.get? (.external v) = none := by
  rw [← Option.not_isSome_iff_eq_none, ← sound.basic]
  exact fun basic => sound.disjoint v basic outside

theorem introduce (definable : t.Definable column solved) : (t.introduce column solved).Sound := by
  obtain ⟨e, tolerance, -⟩ := sound.tolerant
  have wf := sound.toWellFormed.introduce tolerance definable
  have rows := get?_introduce sound.toWellFormed tolerance column solved
  have stored (key : Column) (before : (t.rows.get? key).isSome) :
      ((t.introduce column solved).rows.get? key).isSome := by
    rw [rows]
    split
    · rfl
    · rwa [Option.isSome_map]
  refine ⟨wf, fun v indexed => ?_, fun v basic known => ?_, fun key waits => ?_,
    fun key waits => ?_⟩
  · obtain ⟨away, inSolved | before⟩ := indexed_of_indexed_introduce sound.toWellFormed tolerance
      definable.apart indexed
    · exact (mem_parametricVariables_introduce definable.apart).2 (.inl inSolved)
    · exact (mem_parametricVariables_introduce definable.apart).2
        (.inr ⟨sound.seen v before, Ne.symm away⟩)
  · rw [wf.basic, rows] at basic
    rcases (mem_parametricVariables_introduce definable.apart).1 known with inSolved | ⟨before, away⟩
    · split at basic
      · next same =>
          rw [← same, Sorted.Map.contains, definable.apart] at inSolved
          cases inSolved
      · rw [Option.isSome_map, definable.nonbasic _ inSolved] at basic
        cases basic
    · rw [if_neg away, Option.isSome_map, sound.not_basic before] at basic
      cases basic
  · rcases (mem_infeasible_introduce sound.toWellFormed tolerance column solved key).1 waits with
      ⟨_, _, _, violates⟩ | before
    · exact violates.1
    · exact sound.recorded key before
  · rcases (mem_infeasible_introduce sound.toWellFormed tolerance column solved key).1 waits with
      ⟨_, found, _, _⟩ | before
    · exact stored key (by rw [found]; rfl)
    · exact stored key (sound.present key before)

theorem insertRow (storable : t.Storable key row) (symbol : key.isExternal = false) :
    (t.insertRow key row).Sound := by
  refine ⟨sound.toWellFormed.insertRow storable, fun v indexed => ?_, fun v basic known => ?_,
    fun r waits => ?_, fun r waits => ?_⟩
  · exact mem_parametricVariables_insertRow.2
      ((indexed_insertRow.1 indexed).imp_right (sound.seen v))
  · rcases mem_basicVariables_insertRow.1 basic with same | before
    · rw [same] at symbol
      cases symbol
    · rcases mem_parametricVariables_insertRow.1 known with inRow | outside
      · have absent := storable.nonbasic _ inRow
        have inside := (sound.basic v).1 before
        rw [absent] at inside
        cases inside
      · exact sound.disjoint v before outside
  · rw [infeasible_insertRow] at waits
    exact sound.recorded r waits
  · rw [infeasible_insertRow] at waits
    rw [get?_insertRow]
    split
    · rfl
    · exact sound.present r waits

theorem removeRow (key : Column) : (t.removeRow key).Sound := by
  refine ⟨sound.toWellFormed.removeRow key, fun v indexed => ?_, fun v basic known => ?_,
    fun r waits => ?_, fun r waits => ?_⟩
  · rw [parametricVariables_removeRow]
    exact sound.seen v (indexed_removeRow.1 indexed)
  · rw [parametricVariables_removeRow] at known
    exact sound.disjoint v (mem_basicVariables_removeRow.1 basic).2 known
  · rw [infeasible_removeRow, Sorted.Set.mem_erase] at waits
    exact sound.recorded r waits.2
  · rw [infeasible_removeRow, Sorted.Set.mem_erase] at waits
    rw [get?_removeRow, if_neg (Ne.symm waits.1)]
    exact sound.present r waits.2

theorem pivoted (pivotal : t.Pivotal entry exit row) : (t.pivoted entry exit row).Sound :=
  (sound.removeRow exit).introduce (sound.definable pivotal)

theorem removeColumn (symbol : column.isExternal = false) : (t.removeColumn column).Sound := by
  cases outside : t.rows.get? column with
  | some row =>
      rw [sound.removeColumn_of_basic (by rw [outside]; rfl) symbol]
      exact sound
  | none =>
      refine ⟨sound.toWellFormed.removeColumn outside, fun v indexed => ?_, fun v basic known => ?_,
        fun r waits => ?_, fun r waits => ?_⟩
      · rw [parametricVariables_removeColumn t symbol]
        rw [index_removeColumn, Sorted.Map.get?_erase] at indexed
        split at indexed
        · cases indexed
        · exact sound.seen v indexed
      · rw [parametricVariables_removeColumn t symbol] at known
        exact sound.disjoint v (mem_basicVariables_removeColumn.1 basic).2 known
      · rw [infeasible_removeColumn] at waits
        exact sound.recorded r waits
      · rw [infeasible_removeColumn] at waits
        rw [get?_removeColumn sound.toWellFormed, Option.isSome_map]
        exact sound.present r waits

theorem setConstant (column : Column) (k : Rat) : (t.setConstant column k).Sound := by
  obtain ⟨rows, same⟩ := t.setConstant_eq column k
  refine ⟨sound.toWellFormed.setConstant column k, fun v indexed => ?_, fun v basic => ?_,
    fun r waits => ?_, fun r waits => ?_⟩
  · rw [parametricVariables_setConstant]
    exact sound.seen v (index_setConstant t column k ▸ indexed)
  · rw [parametricVariables_setConstant]
    rw [same] at basic
    exact sound.disjoint v basic
  · exact sound.recorded r (infeasible_setConstant t column k ▸ waits)
  · have before := sound.present r (infeasible_setConstant t column k ▸ waits)
    rw [get?_setConstant]
    split
    · rwa [Option.isSome_map]
    · exact before

theorem markInfeasible (restricted : key.isRestricted = true)
    (stored : (t.rows.get? key).isSome) : (t.markInfeasible key).Sound := by
  refine ⟨sound.toWellFormed.of_terms rfl rfl rfl fun _ => rfl, sound.seen, sound.disjoint,
    fun r waits => ?_, fun r waits => ?_⟩
  · rcases Sorted.Set.mem_insert.1 waits with rfl | before
    · exact restricted
    · exact sound.recorded r before
  · rcases Sorted.Set.mem_insert.1 waits with rfl | before
    · exact stored
    · exact sound.present r before

theorem awaiting {rest : Sorted.Set Column} (fewer : ∀ key ∈ rest, key ∈ t.infeasible) :
    (t.awaiting rest).Sound where
  toWellFormed := sound.toWellFormed.of_terms rfl rfl rfl fun _ => rfl
  seen := sound.seen
  disjoint := sound.disjoint
  recorded key waits := sound.recorded key (fewer key waits)
  present key waits := sound.present key (fewer key waits)

theorem addToObjective {objective : Column} (found : t.rows.get? objective = some row)
    (restricted : column.isRestricted = true) (k : Rat) :
    (t.addToObjective column k objective).Sound := by
  have plain := Column.not_objective_of_restricted restricted
  have apart := sound.apart_addToObjective found plain k
  refine ⟨sound.toWellFormed.addToObjective found plain k, fun v indexed => ?_, fun v basic => ?_,
    fun r waits => ?_, fun r waits => ?_⟩
  · rw [apart.parametrics]
    rcases sound.indexed_addToObjective found plain k indexed with same | before
    · rw [← same] at restricted
      cases restricted
    · exact sound.seen v before
  · rw [apart.parametrics]
    rw [apart.basics] at basic
    exact sound.disjoint v basic
  · rw [apart.infeasible] at waits
    exact sound.recorded r waits
  · rw [apart.infeasible] at waits
    by_cases same : r = objective
    · rw [same]
      exact apart.stored
    · rw [apart.others r same]
      exact sound.present r waits

end Sound

end SoftSimplex.Tableau
