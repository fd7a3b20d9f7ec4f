import SoftSimplex.Step

/-!
Substitutions that may break off.

A substitution changes one row after another and one term after another. It breaks off where a sum is
no number, and where a sum is to be compared with zero although there is no tolerance; what it has
changed by then stays changed. With numbers only and a tolerance it is `substituteOut`
(`substitute_eq`).
-/

namespace SoftSimplex.Tableau

variable {K : Type} [Scalar K]

/-- What keeps a multiple of a term from being added to a row. -/
def termObstacle? (t : Tableau K) (row : Row K) (multiplier : K) (term : Column × K) :
    Option (Fault K) :=
  match row.terms.get? term.1 with
  | none => if Scalar.isNumber (multiplier * term.2) then none else some .overflow
  | some old =>
    if !Scalar.isNumber (old + multiplier * term.2) then some .overflow
    else if t.tolerance.isNone then some .incomparable
    else none

/-- Replace a column in one row by the row that defines it, as far as that goes. -/
def substituteIn (column : Column) (solved : Row K) (key : Column) : Step K (Tableau K) Unit := do
  let t ← Step.get
  match t.rows.get? key with
  | none => return ()
  | some row =>
    let multiplier := row.coefficient column
    let constant := row.constant + multiplier * solved.constant
    Step.set (t.dropTerm key column)
    Step.ensure .overflow (Scalar.isNumber constant)
    let obstacle? := t.termObstacle? { row with terms := row.terms.erase column } multiplier
    let passed := solved.terms.toList.takeWhile fun term => (obstacle? term).isNone
    Step.set (t.replaceTerms column key row constant multiplier passed)
    match solved.terms.toList.findSome? obstacle? with
    | some fault => Step.fail fault
    | none =>
      Step.ensure .incomparable (!key.isRestricted || t.tolerance.isSome)
      Step.modify fun t => t.markIfRestricted key constant

/-- Replace a column by the row that defines it, in every row that the index names for it. -/
def substitute (column : Column) (solved : Row K) : Step K (Tableau K) Unit := do
  Step.forEach ((← Step.get).rowsWith column) (substituteIn column solved)
  Step.modify fun t => t.enterBasis column

/-! ### Substitutions that do not break off -/

omit [Scalar K] in
@[simp] theorem tolerance_dropTerm (t : Tableau K) (key column : Column) :
    (t.dropTerm key column).tolerance = t.tolerance := by
  unfold dropTerm
  split <;> rfl

omit [Scalar K] in
@[simp] theorem tolerance_setTerm (t : Tableau K) (key column : Column) (coefficient : K) :
    (t.setTerm key column coefficient).tolerance = t.tolerance := by
  unfold setTerm
  split <;> rfl

omit [Scalar K] in
@[simp] theorem tolerance_unlink (t : Tableau K) (column row : Column) :
    (t.unlink column row).tolerance = t.tolerance := by
  unfold unlink
  split <;> rfl

@[simp] theorem tolerance_substituteTerm (t : Tableau K) (key : Column) (multiplier : K)
    (column : Column) (coefficient : K) :
    (t.substituteTerm key multiplier column coefficient).tolerance = t.tolerance := by
  unfold substituteTerm
  split
  · simp [link]
  · simp only
    split <;> simp

@[simp] theorem tolerance_replaceTerms (t : Tableau K) (column key : Column) (row : Row K)
    (constant multiplier : K) (terms : List (Column × K)) :
    (t.replaceTerms column key row constant multiplier terms).tolerance = t.tolerance := by
  have keeps (terms : List (Column × K)) (s : Tableau K) :
      (terms.foldl (fun t term => t.substituteTerm key multiplier term.1 term.2) s).tolerance =
        s.tolerance := by
    induction terms generalizing s with
    | nil => rfl
    | cons term rest ih => simp [ih]
  simp [replaceTerms, keeps]

@[simp] theorem tolerance_substituteRow (t : Tableau K) (column : Column) (solved : Row K)
    (key : Column) : (substituteRow column solved t key).tolerance = t.tolerance := by
  unfold substituteRow
  split
  · rfl
  · simp only [markIfRestricted, markIfNegative, markInfeasible]
    split
    · split <;> simp
    · simp

/-- With numbers only and a tolerance, nothing keeps a term from being added. -/
theorem termObstacle?_eq_none {t : Tableau K} (numbers : ∀ x : K, Scalar.isNumber x = true)
    (tolerant : t.tolerance.isSome = true) (row : Row K) (multiplier : K) (term : Column × K) :
    t.termObstacle? row multiplier term = none := by
  unfold termObstacle?
  split
  · simp [numbers]
  · cases h : t.tolerance <;> simp_all

/-- With numbers only and a tolerance, a column is replaced in a row altogether. -/
theorem substituteIn_eq {t : Tableau K} (numbers : ∀ x : K, Scalar.isNumber x = true)
    (tolerant : t.tolerance.isSome = true) (column : Column) (solved : Row K) (key : Column) :
    substituteIn column solved key t = ⟨.ok (), substituteRow column solved t key, []⟩ := by
  have free (row : Row K) (multiplier : K) :
      t.termObstacle? row multiplier = fun _ => none :=
    funext fun term => termObstacle?_eq_none numbers tolerant row multiplier term
  have passed (terms : List (Column × K)) : (terms.takeWhile fun _ => true) = terms := by
    induction terms with
    | nil => rfl
    | cons term rest ih => simp [ih]
  have unhindered (terms : List (Column × K)) :
      (terms.findSome? fun _ => (none : Option (Fault K))) = none := by
    induction terms with
    | nil => rfl
    | cons term rest ih => simp [ih]
  unfold substituteIn substituteRow
  cases h : t.rows.get? key with
  | none => simp [bind, Step.bind, Step.get, h, pure, Step.pure]
  | some row =>
    simp [bind, Step.bind, Step.get, Step.set, Step.modify, h, free, passed, unhindered, numbers,
      tolerant, Step.pure]

/-- With numbers only and a tolerance, a column is replaced everywhere. -/
theorem substitute_eq {t : Tableau K} (numbers : ∀ x : K, Scalar.isNumber x = true)
    (tolerant : t.tolerance.isSome = true) (column : Column) (solved : Row K) :
    substitute column solved t = ⟨.ok (), t.substituteOut column solved, []⟩ := by
  have each (keys : List Column) (s : Tableau K) (tolerant : s.tolerance.isSome = true) :
      Step.forEach keys (substituteIn column solved) s =
        ⟨.ok (), keys.foldl (substituteRow column solved) s, []⟩ := by
    induction keys generalizing s with
    | nil => rfl
    | cons key rest ih =>
      have next := ih (substituteRow column solved s key) (by simpa using tolerant)
      simp [Step.forEach, Step.bind, substituteIn_eq numbers tolerant, next]
  simp [substitute, bind, Step.bind, Step.get, Step.modify, each _ _ tolerant, substituteOut]

end SoftSimplex.Tableau
