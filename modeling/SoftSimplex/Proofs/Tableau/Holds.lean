import SoftSimplex.Proofs.Tableau.Substitution

/-!
The assignments that a tableau allows.

Every row is an equation (`Holds`). The columns outside the basis may take any values, and the rows
then give the others theirs (`extend`); no other assignment holds (`Holds.eq_extend`). This module says
what storing a row, taking one out and making a column basic do to the assignments that hold, for
tableaus that count only zero as zero (`Exact`).
-/

namespace SoftSimplex.Tableau

variable {t : Tableau Rat} {key column entry c : Column} {row solved : Row Rat}
  {σ τ : Column → Rat}

/-- A well-formed tableau that computes without tolerance. -/
structure Exact (t : Tableau Rat) : Prop extends t.WellFormed where
  exact : t.tolerance = some 0

/-- An assignment satisfies the equation of every row. -/
def Holds (t : Tableau Rat) (σ : Column → Rat) : Prop :=
  ∀ key row, t.rows.get? key = some row → σ key = row.eval σ

/-- The assignment that keeps the values outside the basis and takes the others from the rows. -/
def extend (t : Tableau Rat) (σ : Column → Rat) : Column → Rat := fun c =>
  match t.rows.get? c with
  | some row => row.eval σ
  | none => σ c

/-- The assignment that is zero outside the basis. -/
def basicSolution (t : Tableau Rat) : Column → Rat := t.extend fun _ => 0

theorem extend_of_basic (found : t.rows.get? key = some row) (σ : Column → Rat) :
    t.extend σ key = row.eval σ := by
  rw [extend, found]

theorem extend_of_not_basic (absent : t.rows.get? c = none) (σ : Column → Rat) :
    t.extend σ c = σ c := by
  rw [extend, absent]

theorem basicSolution_of_basic (found : t.rows.get? key = some row) :
    t.basicSolution key = row.constant := by
  rw [basicSolution, extend_of_basic found, Row.eval_zero]

theorem basicSolution_of_not_basic (absent : t.rows.get? c = none) : t.basicSolution c = 0 :=
  extend_of_not_basic absent _

/-! ### Extensions are the assignments that hold -/

/-- Rows look outside the basis only. -/
theorem WellFormed.eval_congr (wf : t.WellFormed) (found : t.rows.get? key = some row)
    (same : ∀ c, t.rows.get? c = none → σ c = τ c) : row.eval σ = row.eval τ :=
  Row.eval_congr fun _ nonzero => same _ (wf.not_basic (mentions_of_coefficient found nonzero))

theorem WellFormed.eval_extend (wf : t.WellFormed) (found : t.rows.get? key = some row)
    (σ : Column → Rat) : row.eval (t.extend σ) = row.eval σ :=
  wf.eval_congr found fun _ absent => extend_of_not_basic absent σ

theorem WellFormed.holds_extend (wf : t.WellFormed) (σ : Column → Rat) : t.Holds (t.extend σ) := by
  intro key row found
  rw [extend_of_basic found, wf.eval_extend found]

theorem WellFormed.holds_basicSolution (wf : t.WellFormed) : t.Holds t.basicSolution :=
  wf.holds_extend _

/-- An assignment that holds is known outside the basis. -/
theorem Holds.eq_extend (holds : t.Holds σ) (wf : t.WellFormed)
    (same : ∀ c, t.rows.get? c = none → σ c = τ c) : σ = t.extend τ := by
  funext c
  cases found : t.rows.get? c with
  | none => rw [extend_of_not_basic found, same c found]
  | some row => rw [holds c row found, extend_of_basic found, wf.eval_congr found same]

theorem Holds.eq_basicSolution (holds : t.Holds σ) (wf : t.WellFormed)
    (zero : ∀ c, t.rows.get? c = none → σ c = 0) : σ = t.basicSolution :=
  holds.eq_extend wf zero

/-- A basic column is not looked at by any row, so its equation alone speaks of it. -/
theorem WellFormed.eval_update_basic (wf : t.WellFormed) (found : t.rows.get? key = some row)
    (basic : (t.rows.get? c).isSome) (σ : Column → Rat) (x : Rat) :
    row.eval (Function.update σ c x) = row.eval σ := by
  rw [Row.eval_update_assignment, wf.coefficient_of_basic found basic, zero_mul, add_zero]

/-- A column that the assignments which hold do not depend on is neither basic nor mentioned. -/
theorem WellFormed.not_basic_of_free (wf : t.WellFormed)
    (free : ∀ σ x, t.Holds σ → t.Holds (Function.update σ c x)) : t.rows.get? c = none := by
  by_contra basic
  obtain ⟨row, found⟩ := Option.ne_none_iff_exists'.1 basic
  have moved := free _ (row.constant + 1) wf.holds_basicSolution c row found
  rw [wf.eval_update_basic found (by rw [found]; rfl), Function.update_self,
    ← wf.holds_basicSolution c row found, basicSolution_of_basic found] at moved
  linarith

theorem WellFormed.not_mentioned_of_free (wf : t.WellFormed)
    (free : ∀ σ x, t.Holds σ → t.Holds (Function.update σ c x)) (key : Column) :
    ¬t.Mentions key c := by
  intro mentioned
  obtain ⟨row, found, present⟩ := mentions_iff.1 mentioned
  have nonzero := wf.coefficient_ne_zero found present
  have different : key ≠ c := by
    rintro rfl
    rw [wf.not_basic mentioned] at found
    cases found
  have moved := free _ (t.basicSolution c + 1) wf.holds_basicSolution key row found
  rw [Function.update_of_ne different, Row.eval_update_assignment,
    ← wf.holds_basicSolution key row found] at moved
  refine nonzero ?_
  linarith

/-! ### Growing columns -/

/-- The assignment at which one column outside the basis has grown, and the others are zero. -/
def ray (t : Tableau Rat) (entry : Column) (x : Rat) : Column → Rat :=
  t.extend (Function.update (fun _ => 0) entry x)

theorem ray_of_basic (found : t.rows.get? key = some row) (entry : Column) (x : Rat) :
    t.ray entry x key = row.constant + row.coefficient entry * x := by
  rw [ray, extend_of_basic found, Row.eval_update_assignment, Row.eval_zero]
  ring

theorem ray_self (outside : t.rows.get? entry = none) (x : Rat) : t.ray entry x entry = x := by
  rw [ray, extend_of_not_basic outside, Function.update_self]

theorem ray_of_not_basic (outside : t.rows.get? c = none) (different : c ≠ entry) (x : Rat) :
    t.ray entry x c = 0 := by
  rw [ray, extend_of_not_basic outside, Function.update_of_ne different]

/-- A column grows without those whose rows do not mention it. -/
theorem ray_of_unmentioned (unmentioned : ¬t.Mentions key entry) (different : key ≠ entry)
    (x : Rat) : t.ray entry x key = t.basicSolution key := by
  cases found : t.rows.get? key with
  | none => rw [ray_of_not_basic found different, basicSolution_of_not_basic found]
  | some row =>
      have zero : row.coefficient entry = 0 := by
        by_contra nonzero
        exact unmentioned (mentions_of_coefficient found nonzero)
      rw [ray_of_basic found, zero, zero_mul, add_zero, basicSolution_of_basic found]

theorem WellFormed.holds_ray (wf : t.WellFormed) (entry : Column) (x : Rat) :
    t.Holds (t.ray entry x) := wf.holds_extend _

theorem ray_zero (t : Tableau Rat) (entry : Column) : t.ray entry 0 = t.basicSolution := by
  rw [ray, basicSolution, Function.update_eq_self_iff.2 rfl]

/-! ### Rows that come and go -/

theorem holds_insertRow (absent : t.rows.get? key = none) :
    (t.insertRow key row).Holds σ ↔ t.Holds σ ∧ σ key = row.eval σ := by
  constructor
  · intro holds
    refine ⟨fun r row' found => holds r row' ?_, holds key row ?_⟩
    · rw [get?_insertRow, if_neg, found]
      rintro rfl
      rw [absent] at found
      cases found
    · rw [get?_insertRow, if_pos rfl]
  · rintro ⟨holds, own⟩ r row' found
    rw [get?_insertRow] at found
    split at found
    · next same =>
        cases found
        rw [← same, own]
    · exact holds r row' found

theorem holds_removeRow_of_absent (absent : t.rows.get? key = none) :
    (t.removeRow key).Holds σ ↔ t.Holds σ := by
  unfold Holds
  simp only [get?_removeRow]
  refine forall_congr' fun r => forall_congr' fun row => ?_
  split
  · next same => simp [← same, absent]
  · rfl

/-- Without the row of a basic column the column may take any value. -/
theorem holds_removeRow (wf : t.WellFormed) (found : t.rows.get? key = some row) :
    (t.removeRow key).Holds σ ↔ ∃ x, t.Holds (Function.update σ key x) := by
  have basic : (t.rows.get? key).isSome := by rw [found]; rfl
  constructor
  · intro holds
    refine ⟨row.eval σ, fun r row' found' => ?_⟩
    rw [wf.eval_update_basic found' basic]
    by_cases same : r = key
    · subst same
      rw [Function.update_self, Option.some.inj (found.symm.trans found')]
    · rw [Function.update_of_ne same]
      exact holds r row' (by rw [get?_removeRow, if_neg (Ne.symm same), found'])
  · rintro ⟨x, holds⟩ r row' found'
    rw [get?_removeRow] at found'
    split at found'
    · cases found'
    · next different =>
        have own := holds r row' found'
        rwa [wf.eval_update_basic found' basic, Function.update_of_ne (Ne.symm different)] at own

/-- The basic solution without the row of a basic column. -/
theorem basicSolution_removeRow (different : c ≠ key) :
    (t.removeRow key).basicSolution c = t.basicSolution c := by
  rw [basicSolution, basicSolution, extend, extend, get?_removeRow, if_neg (Ne.symm different)]

theorem basicSolution_removeRow_self : (t.removeRow key).basicSolution key = 0 :=
  basicSolution_of_not_basic (by rw [get?_removeRow, if_pos rfl])

/-! ### New basic columns -/

section

variable (exact : t.Exact)
include exact

theorem Exact.introduce (definable : t.Definable column solved) :
    (t.introduce column solved).Exact :=
  ⟨WellFormed.introduce exact.toWellFormed exact.exact definable,
    (tolerance_introduce exact.toWellFormed exact.exact column solved).trans exact.exact⟩

/-- A new basic column adds its definition to the equations. -/
theorem Exact.holds_introduce (definable : t.Definable column solved) :
    (t.introduce column solved).Holds σ ↔ t.Holds σ ∧ σ column = solved.eval σ := by
  have rows := get?_introduce exact.toWellFormed exact.exact column solved
  constructor
  · intro holds
    have own : σ column = solved.eval σ := holds column solved (by rw [rows, if_pos rfl])
    refine ⟨fun key row found => ?_, own⟩
    have different : column ≠ key := by
      rintro rfl
      rw [definable.absent] at found
      cases found
    rw [holds key (row.substituted 0 column solved)
      (by rw [rows, if_neg different, found, Option.map_some]),
      Row.eval_substituted row definable.apart, own]
    ring
  · rintro ⟨holds, own⟩ key row' found'
    rw [rows] at found'
    split at found'
    · next same =>
        cases found'
        rw [← same, own]
    · obtain ⟨row, found, rfl⟩ := Option.map_eq_some_iff.1 found'
      rw [Row.eval_substituted row definable.apart, holds key row found, own]
      ring

/-- The new basic column is what the basic solution moves along. -/
theorem Exact.basicSolution_introduce (definable : t.Definable column solved) :
    (t.introduce column solved).basicSolution = t.ray column solved.constant := by
  have outside : ∀ c, (t.introduce column solved).rows.get? c = none →
      c ≠ column ∧ t.rows.get? c = none := by
    intro c absent
    rw [get?_introduce exact.toWellFormed exact.exact] at absent
    split at absent
    · cases absent
    · next different => exact ⟨Ne.symm different, Option.map_eq_none_iff.1 absent⟩
  have value : solved.eval (t.ray column solved.constant) = solved.constant := by
    rw [← solved.eval_zero]
    refine Row.eval_congr fun c nonzero => ?_
    have present := Row.contains_of_coefficient nonzero
    refine ray_of_not_basic (definable.nonbasic c present) ?_ _
    rintro rfl
    rw [Sorted.Map.contains, definable.apart] at present
    cases present
  refine (Holds.eq_basicSolution ((exact.holds_introduce definable).2 ⟨exact.holds_ray _ _, ?_⟩)
    (exact.introduce definable).toWellFormed fun c absent => ?_).symm
  · rw [value, ray_self definable.absent]
  · exact ray_of_not_basic (outside c absent).2 (outside c absent).1 _

omit exact in
theorem WellFormed.mentions_of_mentions_introduce (wf : t.WellFormed)
    (apart : solved.terms.get? column = none)
    (mentioned : (t.introduce column solved).Mentions key c) :
    (key = column ∧ solved.terms.contains c = true) ∨
      (key ≠ column ∧ (t.Mentions key c ∨
        (t.Mentions key column ∧ solved.terms.contains c = true))) := by
  obtain ⟨e, tolerance, -⟩ := wf.tolerant
  obtain ⟨row', found', present⟩ := mentions_iff.1 mentioned
  rw [get?_introduce wf tolerance] at found'
  split at found'
  · next same =>
      cases found'
      exact .inl ⟨same.symm, present⟩
  · next different =>
      obtain ⟨row, found, rfl⟩ := Option.map_eq_some_iff.1 found'
      refine .inr ⟨Ne.symm different, ?_⟩
      by_cases touched : row.terms.contains column = true
      · rcases (Row.contains_of_contains_substituted apart present).2 with inRow | inSolved
        · exact .inl (mentions_iff.2 ⟨row, found, inRow⟩)
        · exact .inr ⟨mentions_iff.2 ⟨row, found, touched⟩, inSolved⟩
      · rw [Row.substituted, if_neg touched] at present
        exact .inl (mentions_iff.2 ⟨row, found, present⟩)

theorem Exact.removeRow (key : Column) : (t.removeRow key).Exact :=
  ⟨exact.toWellFormed.removeRow key, (tolerance_removeRow t key).trans exact.exact⟩

theorem Exact.insertRow (storable : t.Storable key row) : (t.insertRow key row).Exact :=
  ⟨exact.toWellFormed.insertRow storable, (tolerance_insertRow t key row).trans exact.exact⟩

end

end SoftSimplex.Tableau
