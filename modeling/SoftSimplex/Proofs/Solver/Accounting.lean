import SoftSimplex.Proofs.Simplex.Consistency

/-!
What the objective charges for.

Without tolerance the objective is a sum over columns, in which the errors of a constraint cost its weight
and its other columns cost nothing (`Accounts`). Penalties enter a constraint into the accounts and strike
it out of them (`Accounts.entered`, `Accounts.forgiven`); changes that leave the columns of the accounts
alone leave the accounts alone (`Accounts.changes`), and as long as no weight is negative the objective is
bounded (`Accounts.bounded`).
-/

namespace SoftSimplex

namespace Markers

variable {m : Markers Rat} {priority : Priority} {comparator : Comparator} {c : Column}

/-- What the objective charges for a column of a constraint. -/
def charge (m : Markers Rat) (c : Column) : Rat := if c ∈ m.errors then m.weight.getD 0 else 0

theorem charge_of_error (error : c ∈ m.errors) : m.charge c = m.weight.getD 0 := if_pos error

theorem charge_of_not_error (absent : c ∉ m.errors) : m.charge c = 0 := if_neg absent

theorem Fits.nodup_errors (fits : Fits priority comparator m) : m.errors.Nodup := by
  cases fits with
  | equation _ => exact List.nodup_nil
  | wishedEquation _ _ apart => simp [Ne.symm apart]
  | bound _ _ => exact List.nodup_nil
  | wishedBound _ _ _ _ => exact List.nodup_singleton _
  | side _ _ _ _ => exact List.nodup_nil
  | turnedSide _ _ _ _ => exact List.nodup_nil

/-- Every error is charged for once. -/
theorem Fits.charge_eq_count (fits : Fits priority comparator m) (c : Column) :
    m.charge c = m.weight.getD 0 * m.errors.count c := by
  by_cases error : c ∈ m.errors
  · rw [charge_of_error error, List.count_eq_one_of_mem fits.nodup_errors error, Nat.cast_one,
      mul_one]
  · rw [charge_of_not_error error, List.count_eq_zero_of_not_mem error, Nat.cast_zero, mul_zero]

end Markers

namespace Tableau

variable {t t' : Tableau Rat} {free moving : Set Column} {bill goal : Row Rat} {column c : Column}
  {errors : List Column} {weight : Rat} {entries others : Markers Rat → Prop} {m : Markers Rat}
  {priority : Priority} {comparator : Comparator}

/-! ### Bills and penalties -/

/-- Columns that are added to the objective are added to its bill. -/
theorem Billed.penalized (billed : t.Billed .objective bill) (exact : t.Exact)
    (stored : (t.rows.get? .objective).isSome) (free : bill.coefficient .objective = 0)
    (plain : ∀ c ∈ errors, c.isObjective = false) (weight : Rat) :
    ∃ bill', (t.penalized weight errors).Billed .objective bill' ∧
      ∀ c, bill'.coefficient c = bill.coefficient c + weight * errors.count c := by
  induction errors generalizing t bill with
  | nil => exact ⟨bill, billed, fun c => by simp⟩
  | cons error rest ih =>
      obtain ⟨goal, found⟩ := Option.isSome_iff_exists.1 stored
      have own := plain error List.mem_cons_self
      have different : error ≠ .objective := by
        rintro rfl
        cases own
      have added : (t.addToObjective error weight).Billed .objective
          (bill.addTerm error weight) := by
        intro σ holds
        have before := billed _ ((exact.holds_addToObjective found own different weight).1 holds)
        rw [Function.update_self, Row.eval_update_assignment, free, zero_mul, add_zero] at before
        rw [Row.eval_addTerm]
        linarith
      obtain ⟨bill', billed', coefficients⟩ := ih added (exact.addToObjective found own weight)
        (exact.apart_addToObjective found own weight).stored
        (by rw [Row.coefficient_addTerm, free, if_neg different, add_zero])
        fun c member => plain c (List.mem_cons_of_mem _ member)
      refine ⟨bill', billed', fun c => ?_⟩
      rw [coefficients, Row.coefficient_addTerm, List.count_cons]
      by_cases same : error = c
      · simp [same]
        ring
      · simp [same]

/-- Penalties touch the objective and the columns that they are for. -/
theorem Sound.changes_penalized (sound : t.Sound) (stored : (t.rows.get? .objective).isSome)
    (restricted : ∀ c ∈ errors, c.isRestricted = true)
    (known : ∀ c ∈ errors, c ∈ t.scope ∨ c ∈ free) (given : .objective ∈ free) (weight : Rat) :
    Changes free moving t (t.penalized weight errors) := by
  induction errors generalizing t with
  | nil => exact .refl
  | cons error rest ih =>
      obtain ⟨goal, found⟩ := Option.isSome_iff_exists.1 stored
      have own := restricted error List.mem_cons_self
      have plain := Column.not_objective_of_restricted own
      have change : Change free moving t (t.addToObjective error weight) :=
        .charged found own (known error List.mem_cons_self) given weight
      refine .head change (ih (change.sound sound)
        (sound.apart_addToObjective found plain weight).stored
        (fun c member => restricted c (List.mem_cons_of_mem _ member)) fun c member => ?_)
      exact (known c (List.mem_cons_of_mem _ member)).imp_left
        (sound.mem_addToObjective_of_mem_scope found plain weight)

/-! ### Accounts -/

/-- The objective charges for pivotable columns only and pays for none, and it charges the weights of
some constraints for their errors and nothing for their other columns. -/
def Accounts (t : Tableau Rat) (entries : Markers Rat → Prop) : Prop :=
  ∃ bill : Row Rat, t.Billed .objective bill ∧ bill.Charging ∧
    ∀ m, entries m → ∀ c ∈ m.columns, bill.coefficient c = m.charge c

namespace Accounts

variable (accounts : t.Accounts entries)
include accounts

theorem mono (subset : ∀ m, others m → entries m) : t.Accounts others := by
  obtain ⟨bill, billed, charging, own⟩ := accounts
  exact ⟨bill, billed, charging, fun m listed => own m (subset m listed)⟩

theorem bounded (exact : t.tolerance = some 0) : t.Bounded .objective := by
  obtain ⟨bill, billed, charging, -⟩ := accounts
  exact ⟨exact, bill, billed, charging⟩

/-- Changes leave the accounts alone that give up only columns which are new or cost nothing. -/
theorem changes (changes : Changes free moving t t') (start : t.Sound) (exact : t.tolerance = some 0)
    (stored : (t.rows.get? .objective).isSome) (kept : .objective ∉ free)
    (unpaid : ∀ c ∈ free, c ∉ t.scope ∨ ∃ m, entries m ∧ c ∈ m.columns ∧ m.charge c = 0) :
    t'.Accounts entries := by
  obtain ⟨bill, billed, charging, own⟩ := accounts
  obtain ⟨k, billed'⟩ := changes.billed start exact billed kept fun c paid given => by
    rcases unpaid c given with new | ⟨m, listed, mine, nothing⟩
    · exact new (billed.mem_scope start rfl stored paid)
    · exact paid ((own m listed c mine).trans nothing)
  exact ⟨_, billed', charging, own⟩

omit accounts in
private theorem coefficient_objective (charging : bill.Charging) :
    bill.coefficient .objective = 0 := by
  by_contra paid
  obtain ⟨pivotable, -⟩ := charging .objective paid
  cases pivotable

/-- A constraint whose columns are new is entered into the accounts by its penalties. -/
theorem entered (start : t.Sound) (exact : t.tolerance = some 0)
    (stored : (t.rows.get? .objective).isSome) (fits : m.Fits priority comparator)
    (new : ∀ c ∈ m.columns, c ∉ t.scope)
    (apart : ∀ m', entries m' → ∀ c ∈ m'.columns, c ∉ m.columns)
    (nonneg : 0 ≤ m.weight.getD 0) (perm : errors.Perm m.errors) :
    (t.penalized (m.weight.getD 0) errors).Accounts fun m' => m' = m ∨ entries m' := by
  obtain ⟨bill, billed, charging, own⟩ := accounts
  have mine : ∀ c ∈ m.errors, c ∈ m.columns := fun c => fits.errors_subset
  have plain : ∀ c ∈ errors, c.isObjective = false := fun c error =>
    Column.not_objective_of_restricted (fits.restricted (mine c (perm.subset error)))
  obtain ⟨bill', billed', coefficients⟩ := billed.penalized ⟨start.toWellFormed, exact⟩ stored
    (coefficient_objective charging) plain (m.weight.getD 0)
  have free : ∀ c ∈ m.columns, bill.coefficient c = 0 := fun c inside => by
    by_contra paid
    exact new c inside (billed.mem_scope start rfl stored paid)
  have charged : ∀ c, bill'.coefficient c = bill.coefficient c + m.charge c := fun c => by
    rw [coefficients, perm.count_eq, fits.charge_eq_count]
  refine ⟨bill', billed', fun c paid => ?_, ?_⟩
  · by_cases error : c ∈ m.errors
    · refine ⟨fits.pivotable_errors error, ?_⟩
      rw [charged, free c (mine c error), zero_add, Markers.charge_of_error error]
      exact nonneg
    · rw [charged, Markers.charge_of_not_error error, add_zero] at paid ⊢
      exact charging c paid
  · rintro m' (rfl | listed) c inside
    · rw [charged, free c inside, zero_add]
    · have foreign : c ∉ m.errors := fun error => apart m' listed c inside (mine c error)
      rw [charged, own m' listed c inside, Markers.charge_of_not_error foreign, add_zero]

/-- A constraint is struck out of the accounts when its penalties are withdrawn. -/
theorem forgiven (exact : t.Exact) (stored : (t.rows.get? .objective).isSome)
    (fits : m.Fits priority comparator) (listed : entries m)
    (apart : ∀ m', others m' → entries m' ∧ ∀ c ∈ m'.columns, c ∉ m.columns) :
    (t.penalized (-m.weight.getD 0) m.errors).Accounts
      fun m' => m' = { m with weight := none } ∨ others m' := by
  obtain ⟨bill, billed, charging, own⟩ := accounts
  have mine : ∀ c ∈ m.errors, c ∈ m.columns := fun c => fits.errors_subset
  have plain : ∀ c ∈ m.errors, c.isObjective = false := fun c error =>
    Column.not_objective_of_restricted (fits.restricted (mine c error))
  obtain ⟨bill', billed', coefficients⟩ := billed.penalized exact stored
    (coefficient_objective charging) plain (-m.weight.getD 0)
  have charged : ∀ c, bill'.coefficient c = bill.coefficient c - m.charge c := fun c => by
    rw [coefficients, fits.charge_eq_count, neg_mul, sub_eq_add_neg]
  have nothing : ∀ c ∈ m.columns, bill'.coefficient c = 0 := fun c inside => by
    rw [charged, own m listed c inside, sub_self]
  refine ⟨bill', billed', fun c paid => ?_, ?_⟩
  · have foreign : c ∉ m.columns := fun inside => paid (nothing c inside)
    rw [charged, Markers.charge_of_not_error fun error => foreign (mine c error), sub_zero]
      at paid ⊢
    exact charging c paid
  · rintro m' (rfl | other) c inside
    · rw [nothing c inside]
      simp [Markers.charge]
    · obtain ⟨listed', foreign⟩ := apart m' other
      have absent : c ∉ m.errors := fun error => foreign c inside (mine c error)
      rw [charged, own m' listed' c inside, Markers.charge_of_not_error absent, sub_zero]

end Accounts

end Tableau

end SoftSimplex
