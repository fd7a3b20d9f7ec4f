import SoftSimplex.Proofs.Tableau.Parametrization
import SoftSimplex.Proofs.Tableau.Pivoting

/-!
Columns that come in pairs.

The two columns of an optional constraint stand for one quantity with opposite signs. In every row that is
no objective their coefficients cancel, if the column that a row defines counts with coefficient minus one
(`Paired`). Without tolerance pivots keep that (`Paired.pivoted`), and so do rows that are put in, as long
as their own coefficients cancel, which the rows of other constraints do (`Paired.cancels_parametrize`).
So no two columns of a pair are basic at once, and what is not basic stands beside its partner only
(`Paired.of_basic`).
-/

namespace SoftSimplex

namespace Row

variable {row solved a b : Row Rat} {key column entry exit c m n : Column} {k : Rat}

/-! ### Coefficients that cancel -/

/-- The coefficients of two columns cancel. -/
def Cancels (row : Row Rat) (m n : Column) : Prop := row.coefficient m + row.coefficient n = 0

theorem coefficient_add (a b : Row Rat) (c : Column) :
    (a + b).coefficient c = a.coefficient c + b.coefficient c := by
  have read (row : Row Rat) :
      row.coefficient c = row.eval (Function.update (fun _ => 0) c 1) - row.eval fun _ => 0 := by
    rw [eval_update_assignment]
    ring
  rw [read, read a, read b, eval_add, eval_add]
  ring

theorem cancels_ofConstant (value : Rat) : (ofConstant value).Cancels m n := by
  rw [Cancels, coefficient_ofConstant, coefficient_ofConstant, add_zero]

theorem Cancels.add (first : a.Cancels m n) (second : b.Cancels m n) : (a + b).Cancels m n := by
  unfold Cancels at *
  rw [coefficient_add, coefficient_add]
  linarith

theorem Cancels.scale (cancels : row.Cancels m n) (factor : Rat) : (row.scale factor).Cancels m n := by
  rw [Cancels, coefficient_scale, coefficient_scale, ← add_mul, cancels, zero_mul]

theorem Cancels.insert (cancels : row.Cancels m n) (left : c ≠ m) (right : c ≠ n) (k : Rat) :
    ({ row with terms := row.terms.insert c k } : Row Rat).Cancels m n := by
  rw [Cancels, coefficient_insert, coefficient_insert, if_neg left, if_neg right]
  exact cancels

theorem Cancels.addTerm (cancels : row.Cancels m n) (left : c ≠ m) (right : c ≠ n) (k : Rat) :
    (row.addTerm c k).Cancels m n := cancels.insert left right _

theorem cancels_purge : (row.purge 0).Cancels m n ↔ row.Cancels m n := by
  rw [Cancels, Cancels, coefficient_purge, coefficient_purge]

/-! ### Rows with all terms on one side -/

/-- The coefficient of a column in the row of a basic column, once that column is brought over. -/
def balance (row : Row Rat) (key c : Column) : Rat := row.coefficient c - if c = key then 1 else 0

theorem balance_solvedFor (mentioned : row.coefficient column ≠ 0) (c : Column) :
    (row.solvedFor column).balance column c = -(1 / row.coefficient column) * row.coefficient c := by
  rw [balance, coefficient_solvedFor]
  by_cases same : column = c
  · rw [if_pos same, if_pos same.symm, ← same]
    field_simp
    ring
  · rw [if_neg same, if_neg (Ne.symm same)]
    ring

theorem balance_pivoted (mentioned : row.coefficient entry ≠ 0) (apart : row.coefficient exit = 0)
    (different : entry ≠ exit) (c : Column) :
    (row.pivoted entry exit).balance entry c = -(1 / row.coefficient entry) * row.balance exit c := by
  rw [balance, balance, coefficient_pivoted]
  by_cases leaves : exit = c
  · rw [if_pos leaves, if_pos leaves.symm, ← leaves, if_neg (Ne.symm different), apart]
    ring
  · have solved := balance_solvedFor mentioned c
    rw [balance] at solved
    rw [if_neg leaves, if_neg (Ne.symm leaves), sub_zero, solved]

theorem balance_substituted (row : Row Rat) (apart : solved.terms.get? column = none)
    (different : key ≠ column) (c : Column) : (row.substituted 0 column solved).balance key c =
      row.balance key c + row.coefficient column * solved.balance column c := by
  rw [balance, balance, balance, coefficient_substituted row apart]
  by_cases same : column = c
  · rw [if_pos same, ← same, if_neg (Ne.symm different), if_pos rfl,
      coefficient_of_get?_none apart]
    ring
  · rw [if_neg same, if_neg (Ne.symm same)]
    ring

end Row

namespace Tableau

variable {t t' : Tableau Rat} {entry exit key column c m n : Column} {row solved other : Row Rat}

/-- In every row that is no objective, two columns have opposite coefficients, where the basic column of
the row has minus one. -/
def Paired (t : Tableau Rat) (m n : Column) : Prop :=
  ∀ key row, key.isObjective = false → t.rows.get? key = some row →
    row.balance key m + row.balance key n = 0

namespace Paired

/-! ### Columns that no row mentions -/

/-- Columns that the tableau does not know are paired: no row mentions them. -/
theorem of_not_mem_scope (wf : t.WellFormed) (left : m ∉ t.scope) (right : n ∉ t.scope) :
    t.Paired m n := by
  intro key row _ found
  have zero {c : Column} (new : c ∉ t.scope) : row.balance key c = 0 := by
    have different : c ≠ key := by
      rintro rfl
      rw [not_basic_of_not_mem_scope new] at found
      cases found
    rw [Row.balance, if_neg different, sub_zero]
    exact by_contra fun nonzero =>
      new (wf.mem_scope_of_mentions (mentions_of_coefficient found nonzero))
  rw [zero left, zero right, add_zero]

section

variable (paired : t.Paired m n)
include paired

/-! ### Changes of other rows and columns -/

/-- Pairs are seen by the rows that are no objectives. -/
theorem of_rows (rows : ∀ key row', key.isObjective = false → t'.rows.get? key = some row' →
    ∃ row, t.rows.get? key = some row ∧ ∀ c, c = m ∨ c = n → row'.coefficient c = row.coefficient c) :
    t'.Paired m n := by
  intro key row' plain found'
  obtain ⟨row, found, same⟩ := rows key row' plain found'
  rw [Row.balance, Row.balance, same m (.inl rfl), same n (.inr rfl)]
  exact paired key row plain found

theorem removeRow (key : Column) : (t.removeRow key).Paired m n :=
  paired.of_rows fun k row' _ found' => by
    rw [get?_removeRow] at found'
    split at found'
    · cases found'
    · exact ⟨row', found', fun _ _ => rfl⟩

theorem removeColumn (wf : t.WellFormed) (left : column ≠ m) (right : column ≠ n) :
    (t.removeColumn column).Paired m n :=
  paired.of_rows fun key row' _ found' => by
    rw [get?_removeColumn wf] at found'
    obtain ⟨row, found, rfl⟩ := Option.map_eq_some_iff.1 found'
    refine ⟨row, found, fun c own => ?_⟩
    have different : column ≠ c := by
      rcases own with rfl | rfl
      · exact left
      · exact right
    rw [Row.coefficient, Row.get?_without, if_neg different, Row.coefficient]

theorem setConstant (column : Column) (constant : Rat) : (t.setConstant column constant).Paired m n :=
  paired.of_rows fun key row' _ found' => by
    rw [get?_setConstant] at found'
    split at found'
    · obtain ⟨row, found, rfl⟩ := Option.map_eq_some_iff.1 found'
      exact ⟨row, found, fun _ _ => rfl⟩
    · exact ⟨row', found', fun _ _ => rfl⟩

theorem insertRow (left : m ≠ key) (right : n ≠ key) (cancels : row.Cancels m n) :
    (t.insertRow key row).Paired m n := by
  intro k row' plain found'
  rw [get?_insertRow] at found'
  split at found'
  · next same =>
      obtain rfl := Option.some.inj found'
      rw [Row.balance, Row.balance, if_neg (same ▸ left), if_neg (same ▸ right), sub_zero, sub_zero]
      exact cancels
  · exact paired k row' plain found'

/-! ### New basic columns -/

theorem introduce (exact : t.Exact) (definable : t.Definable column solved)
    (cancels : solved.balance column m + solved.balance column n = 0) :
    (t.introduce column solved).Paired m n := by
  intro key row' plain found'
  rw [get?_introduce exact.toWellFormed exact.exact] at found'
  split at found'
  · next same =>
      obtain rfl := Option.some.inj found'
      exact same ▸ cancels
  · next different =>
      obtain ⟨row, found, rfl⟩ := Option.map_eq_some_iff.1 found'
      rw [Row.balance_substituted row definable.apart (Ne.symm different),
        Row.balance_substituted row definable.apart (Ne.symm different), add_add_add_comm,
        paired key row plain found, ← mul_add, cancels, mul_zero, add_zero]

/-- A row whose coefficients cancel may be solved for any of its columns. -/
theorem introduce_solvedFor (exact : t.Exact) (definable : t.Definable column (row.solvedFor column))
    (mentioned : row.coefficient column ≠ 0) (cancels : row.Cancels m n) :
    (t.introduce column (row.solvedFor column)).Paired m n := by
  refine paired.introduce exact definable ?_
  rw [Row.balance_solvedFor mentioned, Row.balance_solvedFor mentioned, ← mul_add, cancels, mul_zero]

theorem pivoted (exact : t.Exact) (pivotal : t.Pivotal entry exit row) :
    (t.pivoted entry exit row).Paired m n := by
  refine (paired.removeRow exit).introduce (exact.removeRow exit) (exact.definable pivotal) ?_
  have mentioned := exact.entry_coefficient pivotal
  have apart := exact.coefficient_of_basic pivotal.found pivotal.basic
  have different := exact.entry_ne_exit pivotal
  rw [Row.balance_pivoted mentioned apart different, Row.balance_pivoted mentioned apart different,
    ← mul_add, paired exit row pivotal.plain pivotal.found, mul_zero]

/-! ### Rows of other constraints -/

/-- In terms of columns outside the basis, the coefficients cancel in a row of unknowns: in the row of an
unknown they do. -/
theorem cancels_parametrize (exact : t.tolerance = some 0) (left : m.isExternal = false)
    (right : n.isExternal = false)
    (external : ∀ c, row.terms.contains c = true → c.isExternal = true) :
    (t.parametrize row).Cancels m n := by
  have different {c d : Column} (unknown : c.isExternal = true) (symbol : d.isExternal = false) :
      c ≠ d := by
    rintro rfl
    rw [unknown] at symbol
    cases symbol
  have replaced (terms : List (Column × Rat)) (unknowns : ∀ term ∈ terms, term.1.isExternal = true)
      (start : Row Rat) (cancels : start.Cancels m n) :
      (terms.foldl t.replaceTerm start).Cancels m n := by
    induction terms generalizing start with
    | nil => exact cancels
    | cons term rest ih =>
        have unknown := unknowns term List.mem_cons_self
        refine ih (fun later member => unknowns later (List.mem_cons_of_mem _ member)) _ ?_
        rw [replaceTerm]
        cases found : t.rows.get? term.1 with
        | none => exact cancels.addTerm (different unknown left) (different unknown right) _
        | some basic =>
            have own := paired term.1 basic (Column.not_objective_of_external unknown) found
            rw [Row.balance, Row.balance, if_neg (Ne.symm (different unknown left)),
              if_neg (Ne.symm (different unknown right)), sub_zero, sub_zero] at own
            exact cancels.add (Row.Cancels.scale own _)
  rw [parametrize_eq, purge_eq exact, Row.cancels_purge]
  exact replaced _ (fun term member => external term.1 (Row.contains_iff_mem_toList.2 ⟨_, member⟩)) _
    (Row.cancels_ofConstant _)

/-! ### What the rows of a pair look like -/

theorem symm : t.Paired n m := fun key row plain found =>
  (add_comm _ _).trans (paired key row plain found)

/-- A basic column of a pair has its partner in its row, with coefficient one, and no other row has it. -/
theorem of_basic (wf : t.WellFormed) (apart : m ≠ n) (plain : m.isObjective = false)
    (found : t.rows.get? m = some row) : t.rows.get? n = none ∧ row.coefficient n = 1 ∧
      ∀ key, key.isObjective = false → key ≠ m → ¬t.Mentions key n := by
  have basic : (t.rows.get? m).isSome := by
    rw [found]
    rfl
  have one : row.coefficient n = 1 := by
    have own := paired m row plain found
    rw [Row.balance, Row.balance, wf.coefficient_of_basic found basic, if_pos rfl,
      if_neg (Ne.symm apart)] at own
    linarith
  refine ⟨wf.not_basic (mentions_of_coefficient found (by rw [one]; exact one_ne_zero)), one,
    fun key plainKey different mentioned => ?_⟩
  obtain ⟨other, stored, present⟩ := mentions_iff.1 mentioned
  have nonbasic : n ≠ key := by
    rintro rfl
    have outside := wf.not_basic mentioned
    rw [stored] at outside
    cases outside
  have balance := paired key other plainKey stored
  rw [Row.balance, Row.balance, wf.coefficient_of_basic stored basic, if_neg (Ne.symm different),
    if_neg nonbasic] at balance
  refine wf.coefficient_ne_zero stored present ?_
  linarith

/-- Outside the basis the columns of a pair have opposite coefficients. -/
theorem of_outside (left : t.rows.get? m = none) (right : t.rows.get? n = none)
    (plain : key.isObjective = false) (found : t.rows.get? key = some row) :
    row.coefficient n = -row.coefficient m := by
  have different {c : Column} (outside : t.rows.get? c = none) : c ≠ key := by
    rintro rfl
    rw [found] at outside
    cases outside
  have own := paired key row plain found
  rw [Row.balance, Row.balance, if_neg (different left), if_neg (different right)] at own
  linarith

end

end Paired

end Tableau

end SoftSimplex
