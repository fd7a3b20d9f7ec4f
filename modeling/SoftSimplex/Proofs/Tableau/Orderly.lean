import SoftSimplex.Proofs.Tableau.Boundedness
import SoftSimplex.Proofs.Tableau.Paired

/-!
Tableaus in order.

What a tableau keeps depends on what is refrained from (`Restraint`). No restricted row ever mentions an
unknown of the caller; as long as no required equation is taken back, the rows of dummies mention dummies
only; and as long as moreover no value is suggested for a required edit, exact tableaus have the dummies at
zero. The columns of optional constraints come in pairs that exact tableaus keep. All of this is one
invariant (`Orderly`), and there is one lemma here for each thing that may happen to a tableau.
-/

namespace SoftSimplex

/-- What is refrained from. -/
inductive Restraint where
  /-- Nothing is. -/
  | free
  /-- No required equation is taken back. -/
  | keeping
  /-- Moreover, no value is suggested for a required edit. -/
  | still

theorem Restraint.free_ne_still : free ≠ still := Restraint.noConfusion

theorem Restraint.ne_free_of_still {restraint : Restraint} (still : restraint = .still) :
    restraint ≠ .free := still ▸ free_ne_still.symm

namespace Tableau

variable {restraint : Restraint} {pairs more : Column → Column → Prop} {t t' : Tableau Rat}
  {entry exit key column c : Column} {row : Row Rat}

/-- What a tableau keeps under a restraint, where some columns come in pairs. -/
structure Orderly (restraint : Restraint) (pairs : Column → Column → Prop) (t : Tableau Rat) : Prop where
  sheltered : t.Sheltered
  insulated : restraint ≠ .free → t.Insulated
  grounded : restraint = .still → t.tolerance = some 0 →
    ∀ c, c.isDummy = true → t.basicSolution c = 0
  paired : t.tolerance = some 0 → ∀ m n, pairs m n → t.Paired m n

/-- No pair contains a column. -/
def Unpaired (pairs : Column → Column → Prop) (column : Column) : Prop :=
  ∀ m n, pairs m n → column ≠ m ∧ column ≠ n

/-- A tableau with objectives only is in order. -/
theorem orderly_of_absent (absent : ∀ key, key.isObjective = false → t.rows.get? key = none) :
    t.Orderly restraint ⊥ := by
  have unmentioned {key c : Column} (restricted : key.isRestricted = true) : ¬t.Mentions key c := by
    intro mentioned
    obtain ⟨row, found, -⟩ := mentions_iff.1 mentioned
    rw [absent key (Column.not_objective_of_restricted restricted)] at found
    cases found
  refine ⟨fun key c restricted mentioned => absurd mentioned (unmentioned restricted),
    fun _ key c dummy mentioned => absurd mentioned (unmentioned (Column.restricted_of_dummy dummy)),
    fun _ _ c dummy => basicSolution_of_not_basic (absent c ?_), fun _ _ _ => False.elim⟩
  exact Column.not_objective_of_restricted (Column.restricted_of_dummy dummy)

namespace Orderly

variable (orderly : t.Orderly restraint pairs)
include orderly

theorem insulated_of_still (still : restraint = .still) : t.Insulated :=
  orderly.insulated (Restraint.ne_free_of_still still)

theorem mono (subset : ∀ m n, more m n → pairs m n) : t.Orderly restraint more :=
  ⟨orderly.sheltered, orderly.insulated, orderly.grounded, fun exact m n listed =>
    orderly.paired exact m n (subset m n listed)⟩

/-- Columns that the tableau does not know may come in pairs. -/
theorem or_of_not_mem_scope (wf : t.WellFormed)
    (new : ∀ m n, more m n → m ∉ t.scope ∧ n ∉ t.scope) :
    t.Orderly restraint fun m n => more m n ∨ pairs m n :=
  ⟨orderly.sheltered, orderly.insulated, orderly.grounded, fun exact m n listed => by
    rcases listed with fresh | listed
    · exact .of_not_mem_scope wf (new m n fresh).1 (new m n fresh).2
    · exact orderly.paired exact m n listed⟩

/-! ### Rows that lose terms -/

/-- Order is seen by the rows that are no objectives. Terms of columns without a partner may be lost, and
constants may move except for dummies. -/
theorem of_rows (tolerance : t'.tolerance = t.tolerance)
    (rows : ∀ key row', key.isObjective = false → t'.rows.get? key = some row' →
      ∃ row, t.rows.get? key = some row ∧
        (∀ c, row'.terms.contains c = true → row.terms.contains c = true) ∧
        (restraint = .still → key.isDummy = true → row'.constant = row.constant ∨ row'.constant = 0) ∧
        ∀ m n, pairs m n → ∀ c, c = m ∨ c = n → row'.coefficient c = row.coefficient c) :
    t'.Orderly restraint pairs := by
  have mentioned {key c : Column} (restricted : key.isRestricted = true) (mentions : t'.Mentions key c) :
      t.Mentions key c := by
    obtain ⟨row', found', present⟩ := mentions_iff.1 mentions
    obtain ⟨row, found, fewer, -⟩ := rows key row' (Column.not_objective_of_restricted restricted) found'
    exact mentions_iff.2 ⟨row, found, fewer c present⟩
  refine ⟨fun key c restricted mentions => ?_, fun keeping key c dummy mentions => ?_,
    fun still exact c dummy => ?_, fun exact m n listed => ?_⟩
  · exact orderly.sheltered key c restricted (mentioned restricted mentions)
  · exact orderly.insulated keeping key c dummy (mentioned (Column.restricted_of_dummy dummy) mentions)
  · cases found' : t'.rows.get? c with
    | none => exact basicSolution_of_not_basic found'
    | some row' =>
        have plain := Column.not_objective_of_restricted (Column.restricted_of_dummy dummy)
        obtain ⟨row, found, -, constant, -⟩ := rows c row' plain found'
        rw [basicSolution_of_basic found']
        rcases constant still dummy with same | zero
        · rw [same, ← basicSolution_of_basic found]
          exact orderly.grounded still (tolerance ▸ exact) c dummy
        · exact zero
  · refine (orderly.paired (tolerance ▸ exact) m n listed).of_rows fun key row' plain found' => ?_
    obtain ⟨row, found, -, -, same⟩ := rows key row' plain found'
    exact ⟨row, found, same m n listed⟩

/-- Objectives, and what awaits repair, have no part in the order. -/
theorem of_plain (tolerance : t'.tolerance = t.tolerance)
    (rows : ∀ key, key.isObjective = false → t'.rows.get? key = t.rows.get? key) :
    t'.Orderly restraint pairs :=
  orderly.of_rows tolerance fun key row' plain found' =>
    ⟨row', rows key plain ▸ found', fun _ => id, fun _ _ => .inl rfl, fun _ _ _ _ _ => rfl⟩

theorem of_apart (apart : t.Apart t' .objective) : t'.Orderly restraint pairs :=
  orderly.of_plain apart.tolerance fun key plain => apart.others key (by
    rintro rfl
    cases plain)

theorem removeRow (key : Column) : (t.removeRow key).Orderly restraint pairs :=
  orderly.of_rows (tolerance_removeRow t key) fun k row' _ found' => by
    rw [get?_removeRow] at found'
    split at found'
    · cases found'
    · exact ⟨row', found', fun _ => id, fun _ _ => .inl rfl, fun _ _ _ _ _ => rfl⟩

theorem removeColumn (wf : t.WellFormed) (single : Unpaired pairs column) :
    (t.removeColumn column).Orderly restraint pairs :=
  orderly.of_rows (tolerance_removeColumn t column) fun k row' _ found' => by
    rw [get?_removeColumn wf] at found'
    obtain ⟨row, found, rfl⟩ := Option.map_eq_some_iff.1 found'
    refine ⟨row, found, fun c present => ?_, fun _ _ => .inl rfl, fun m n listed c own => ?_⟩
    · rw [Sorted.Map.contains, Row.get?_without] at present
      split at present
      · cases present
      · exact present
    · have different : column ≠ c := by
        rcases own with rfl | rfl
        · exact (single _ _ listed).1
        · exact (single _ _ listed).2
      rw [Row.coefficient, Row.get?_without, if_neg different, Row.coefficient]

/-- Constants may move, but those of dummies to zero only. -/
theorem setConstant {constant : Rat}
    (harmless : restraint = .still → column.isDummy = true → constant = 0) :
    (t.setConstant column constant).Orderly restraint pairs :=
  orderly.of_rows (tolerance_setConstant t column constant) fun k row' _ found' => by
    rw [get?_setConstant] at found'
    split at found'
    · next same =>
        obtain ⟨row, found, rfl⟩ := Option.map_eq_some_iff.1 found'
        exact ⟨row, found, fun _ => id, fun still dummy => .inr (harmless still (same ▸ dummy)),
          fun _ _ _ _ _ => rfl⟩
    · exact ⟨row', found', fun _ => id, fun _ _ => .inl rfl, fun _ _ _ _ _ => rfl⟩

/-- A row of dummies never moves with a column that is no dummy. -/
theorem not_dummy_of_mentions (restrained : restraint ≠ .free) (moves : c.isDummy = false)
    (mentioned : t.Mentions key c) : key.isDummy = false := by
  rw [← Bool.not_eq_true]
  intro dummy
  rw [orderly.insulated restrained key c dummy mentioned] at moves
  cases moves

/-! ### Pivots -/

/-- A column that is no dummy may enter in the row of a restricted column. -/
theorem pivoted (wf : t.WellFormed) (pivotal : t.Pivotal entry exit row)
    (enters : restraint ≠ .free → entry.isDummy = false) (leaves : exit.isRestricted = true) :
    (t.pivoted entry exit row).Orderly restraint pairs where
  sheltered := orderly.sheltered.pivoted wf pivotal leaves
  insulated keeping := (orderly.insulated keeping).pivoted wf pivotal (enters keeping)
  grounded still exact c dummy := by
    have tolerance : t.tolerance = some 0 := (wf.tolerance_pivoted entry exit row).symm.trans exact
    have notDummy := enters (Restraint.ne_free_of_still still)
    rw [(orderly.insulated_of_still still).basicSolution_pivoted ⟨wf, tolerance⟩ pivotal notDummy dummy]
    exact orderly.grounded still tolerance c dummy
  paired exact m n listed := by
    have tolerance : t.tolerance = some 0 := (wf.tolerance_pivoted entry exit row).symm.trans exact
    exact (orderly.paired tolerance m n listed).pivoted ⟨wf, tolerance⟩ pivotal

theorem exchange (wf : t.WellFormed) (exchange : t.Exchange t') : t'.Orderly restraint pairs := by
  cases exchange with
  | awaiting _ => exact orderly.of_plain rfl fun _ _ => rfl
  | turned pivotal enters leaves =>
      exact orderly.pivoted wf pivotal (fun _ => Column.not_dummy_of_pivotable enters) leaves

theorem exchanges (sound : t.Sound) (exchanges : t.Exchanges t') : t'.Orderly restraint pairs := by
  induction exchanges with
  | refl => exact orderly
  | tail before exchange ih =>
      have changes : Changes ∅ ∅ t _ := Exchanges.changes before
      exact ih.exchange (changes.sound sound).toWellFormed exchange

/-! ### New rows -/

/-- A row may be solved for an unknown of the caller; one without such unknowns for a column that is no
dummy; and one of dummies for a dummy, if its constant is zero. -/
theorem introduce (wf : t.WellFormed) (definable : t.Definable column (row.solvedFor column))
    (mentioned : row.coefficient column ≠ 0)
    (direct : column.isExternal = true ∨ ∀ c, row.terms.contains c = true → c.isExternal = false)
    (dummies : column.isDummy = true → (∀ c, row.terms.contains c = true → c.isDummy = true) ∧
      (t.tolerance = some 0 → row.constant = 0))
    (even : t.tolerance = some 0 → ∀ m n, pairs m n → row.Cancels m n) :
    (t.introduce column (row.solvedFor column)).Orderly restraint pairs := by
  obtain ⟨e, tolerant, -⟩ := wf.tolerant
  have tolerance := tolerance_introduce wf tolerant column (row.solvedFor column)
  refine ⟨orderly.sheltered.introduce wf definable fun internal c inSolved => ?_,
    fun keeping => (orderly.insulated keeping).introduce wf definable fun dummy c inSolved => ?_,
    fun still exact c dummy => ?_, fun exact m n listed => ?_⟩
  · rcases direct with external | none
    · rw [external] at internal
      cases internal
    · exact none c (Row.contains_solvedFor.1 inSolved).2
  · exact (dummies dummy).1 c (Row.contains_solvedFor.1 inSolved).2
  · have before : t.tolerance = some 0 := tolerance.symm.trans exact
    rw [Exact.basicSolution_introduce ⟨wf, before⟩ definable]
    by_cases own : column.isDummy = true
    · rw [Row.constant_solvedFor, (dummies own).2 before, zero_mul, ray_zero]
      exact orderly.grounded still before c dummy
    · have unmentioned : ¬t.Mentions c column := fun touched =>
        own (orderly.insulated_of_still still c column dummy touched)
      have different : c ≠ column := by
        rintro rfl
        exact own dummy
      rw [ray_of_unmentioned unmentioned different]
      exact orderly.grounded still before c dummy
  · have before : t.tolerance = some 0 := tolerance.symm.trans exact
    exact (orderly.paired before m n listed).introduce_solvedFor ⟨wf, before⟩ definable mentioned
      (even before m n listed)

/-- A row without unknowns of the caller may be stored under a new pivotable column. -/
theorem insertRow (pivotable : key.isPivotable = true)
    (internal : ∀ c, row.terms.contains c = true → c.isExternal = false) (single : Unpaired pairs key)
    (even : t.tolerance = some 0 → ∀ m n, pairs m n → row.Cancels m n) :
    (t.insertRow key row).Orderly restraint pairs := by
  have notDummy {c : Column} (dummy : c.isDummy = true) : key ≠ c := by
    rintro rfl
    rw [Column.not_dummy_of_pivotable pivotable] at dummy
    cases dummy
  refine ⟨fun k c restricted mentioned => ?_, fun keeping k c dummy mentioned => ?_,
    fun still exact c dummy => ?_, fun exact m n listed => ?_⟩
  · rcases mentions_insertRow.1 mentioned with ⟨-, inRow⟩ | ⟨-, before⟩
    · exact internal c inRow
    · exact orderly.sheltered k c restricted before
  · rcases mentions_insertRow.1 mentioned with ⟨same, -⟩ | ⟨-, before⟩
    · exact absurd same.symm (notDummy dummy)
    · exact orderly.insulated keeping k c dummy before
  · have same : (t.insertRow key row).basicSolution c = t.basicSolution c := by
      rw [basicSolution, basicSolution, extend, extend, get?_insertRow, if_neg (notDummy dummy)]
    rw [same]
    exact orderly.grounded still (tolerance_insertRow t key row ▸ exact) c dummy
  · have before : t.tolerance = some 0 := tolerance_insertRow t key row ▸ exact
    exact (orderly.paired before m n listed).insertRow (Ne.symm (single m n listed).1)
      (Ne.symm (single m n listed).2) (even before m n listed)

end Orderly

end Tableau

end SoftSimplex
