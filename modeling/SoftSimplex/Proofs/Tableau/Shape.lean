import SoftSimplex.Proofs.Tableau.Cycle

/-!
Which columns the rows of a tableau mention.

In a `Sheltered` tableau no restricted row mentions an unknown of the caller, so that unknowns may
take any sign without a restricted row becoming negative. In an `Insulated` tableau the rows of dummies
mention dummies only, so that no turn moves a dummy; in an `Anchored` one they have moreover the
constant zero, so that the dummies are at zero. Turns keep all of these.
-/

namespace SoftSimplex.Tableau

variable {t t' : Tableau Rat} {entry exit key column c : Column} {row solved : Row Rat}
  {σ : Column → Rat}

/-- No restricted row mentions an unknown of the caller. -/
def Sheltered (t : Tableau Rat) : Prop :=
  ∀ key c, key.isRestricted = true → t.Mentions key c → c.isExternal = false

/-- The rows of dummies mention dummies only. -/
def Insulated (t : Tableau Rat) : Prop :=
  ∀ key c, key.isDummy = true → t.Mentions key c → c.isDummy = true

/-- The rows of dummies mention dummies only, and their constant is zero. -/
structure Anchored (t : Tableau Rat) : Prop where
  mentions : ∀ key c, key.isDummy = true → t.Mentions key c → c.isDummy = true
  constant : ∀ key row, key.isDummy = true → t.rows.get? key = some row → row.constant = 0

/-- No pivotable row is negative. -/
def Feasible (t : Tableau Rat) : Prop := ∀ c, c.isPivotable = true → 0 ≤ t.basicSolution c

theorem Feasible.constant (feasible : t.Feasible) (found : t.rows.get? key = some row)
    (pivotable : key.isPivotable = true) : 0 ≤ row.constant := by
  rw [← basicSolution_of_basic found]
  exact feasible key pivotable

theorem feasible_iff : t.Feasible ↔
    ∀ entry ∈ t.rows.toList, entry.1.isPivotable = true → 0 ≤ entry.2.constant := by
  constructor
  · exact fun feasible entry member => feasible.constant (Sorted.Map.get?_eq_some_iff.2 member)
  · intro nonneg c pivotable
    cases found : t.rows.get? c with
    | none => rw [basicSolution_of_not_basic found]
    | some row =>
        rw [basicSolution_of_basic found]
        exact nonneg (c, row) (Sorted.Map.get?_eq_some_iff.1 found) pivotable

instance (t : Tableau Rat) : Decidable t.Feasible := decidable_of_iff _ feasible_iff.symm

/-- No restricted row is negative. -/
def Upright (t : Tableau Rat) : Prop :=
  ∀ key row, t.rows.get? key = some row → key.isRestricted = true → 0 ≤ row.constant

theorem upright_iff : t.Upright ↔ ∀ c, c.isRestricted = true → 0 ≤ t.basicSolution c := by
  constructor
  · intro upright c restricted
    cases found : t.rows.get? c with
    | none => rw [basicSolution_of_not_basic found]
    | some row =>
        rw [basicSolution_of_basic found]
        exact upright c row found restricted
  · intro nonneg key row found restricted
    rw [← basicSolution_of_basic found]
    exact nonneg key restricted

theorem Upright.nonneg (upright : t.Upright) (restricted : c.isRestricted = true) :
    0 ≤ t.basicSolution c := upright_iff.1 upright c restricted

theorem Upright.feasible (upright : t.Upright) : t.Feasible := fun _ pivotable =>
  upright.nonneg (Column.restricted_of_pivotable pivotable)

/-- An assignment gives no pivotable column a negative value and every dummy the value zero. -/
structure Admissible (σ : Column → Rat) : Prop where
  nonneg : ∀ c, c.isPivotable = true → 0 ≤ σ c
  zero : ∀ c, c.isDummy = true → σ c = 0

theorem Admissible.restricted (admissible : Admissible σ) (restricted : c.isRestricted = true) :
    0 ≤ σ c := by
  rcases Column.pivotable_or_dummy restricted with pivotable | dummy
  · exact admissible.nonneg c pivotable
  · exact (admissible.zero c dummy).ge

/-- Whether an assignment is admissible does not depend on the objectives. -/
theorem Admissible.of_plain {τ : Column → Rat} (admissible : Admissible σ)
    (same : ∀ c, c.isObjective = false → τ c = σ c) : Admissible τ where
  nonneg c pivotable := by
    rw [same c (Column.not_objective_of_pivotable pivotable)]
    exact admissible.nonneg c pivotable
  zero c dummy := by
    rw [same c (Column.not_objective_of_restricted (Column.restricted_of_dummy dummy))]
    exact admissible.zero c dummy

/-- Where the dummies outside the basis are zero, so are those in it. -/
theorem Anchored.extend_eq_zero (anchored : t.Anchored) (wf : t.WellFormed)
    (zero : ∀ c, c.isDummy = true → t.rows.get? c = none → σ c = 0) (dummy : c.isDummy = true) :
    t.extend σ c = 0 := by
  cases found : t.rows.get? c with
  | none => rw [extend_of_not_basic found, zero c dummy found]
  | some row =>
      rw [extend_of_basic found, ← anchored.constant c row dummy found, ← row.eval_zero]
      refine Row.eval_congr fun d nonzero => ?_
      have mentioned := mentions_of_coefficient found nonzero
      exact zero d (anchored.mentions c d dummy mentioned) (wf.not_basic mentioned)

theorem Anchored.basicSolution_eq_zero (anchored : t.Anchored) (wf : t.WellFormed)
    (dummy : c.isDummy = true) : t.basicSolution c = 0 :=
  anchored.extend_eq_zero wf (fun _ _ _ => rfl) dummy

/-- Where the dummies are at zero, rows of dummies that mention dummies only anchor them. -/
theorem Insulated.anchored (insulated : t.Insulated)
    (zero : ∀ c, c.isDummy = true → t.basicSolution c = 0) : t.Anchored where
  mentions := insulated
  constant key row dummy found := by
    rw [← basicSolution_of_basic found]
    exact zero key dummy

theorem Feasible.admissible (feasible : t.Feasible) (anchored : t.Anchored) (wf : t.WellFormed) :
    Admissible t.basicSolution :=
  ⟨feasible, fun _ dummy => anchored.basicSolution_eq_zero wf dummy⟩

/-! ### Pivots -/

/-- Pivots in restricted rows bring no unknown of the caller into a restricted row. -/
theorem Sheltered.pivoted (sheltered : t.Sheltered) (wf : t.WellFormed)
    (pivotal : t.Pivotal entry exit row) (restricted : exit.isRestricted = true) :
    (t.pivoted entry exit row).Sheltered := by
  have fromExit : ∀ c, c = exit ∨ t.Mentions exit c → c.isExternal = false := by
    rintro c (rfl | mentioned)
    · exact Column.not_external_of_restricted restricted
    · exact sheltered exit c restricted mentioned
  intro key c restrictedKey mentioned
  rcases wf.mentions_of_mentions_pivoted pivotal mentioned with
    ⟨-, source⟩ | ⟨-, -, kept | ⟨-, source⟩⟩
  · exact fromExit c source
  · exact sheltered key c restrictedKey kept
  · exact fromExit c source

/-- Pivots that make no dummy basic leave the rows of dummies alone. -/
theorem Insulated.pivoted (insulated : t.Insulated) (wf : t.WellFormed)
    (pivotal : t.Pivotal entry exit row) (enters : entry.isDummy = false) :
    (t.pivoted entry exit row).Insulated := by
  intro key c dummy mentioned
  rcases wf.mentions_of_mentions_pivoted pivotal mentioned with
    ⟨same, -⟩ | ⟨-, -, kept | ⟨touched, -⟩⟩
  · rw [same, enters] at dummy
    cases dummy
  · exact insulated key c dummy kept
  · rw [insulated key entry dummy touched] at enters
    cases enters

/-- Pivots that make no dummy basic leave the dummies where they are. -/
theorem Insulated.basicSolution_pivoted (insulated : t.Insulated) (exact : t.Exact)
    (pivotal : t.Pivotal entry exit row) (enters : entry.isDummy = false) (dummy : c.isDummy = true) :
    (t.pivoted entry exit row).basicSolution c = t.basicSolution c := by
  rw [exact.basicSolution_pivoted pivotal]
  refine ray_of_unmentioned (fun mentioned => ?_) ?_ _
  · rw [insulated c entry dummy mentioned] at enters
    cases enters
  · rintro rfl
    rw [dummy] at enters
    cases enters

theorem Anchored.pivoted (anchored : t.Anchored) (wf : t.WellFormed)
    (pivotal : t.Pivotal entry exit row) (enters : entry.isDummy = false) :
    (t.pivoted entry exit row).Anchored where
  mentions := Insulated.pivoted anchored.mentions wf pivotal enters
  constant key row' dummy found' := by
    obtain ⟨e, tolerance, -⟩ := wf.tolerant
    rw [wf.get?_pivoted tolerance] at found'
    split at found'
    · next same =>
        rw [← same, enters] at dummy
        cases dummy
    · split at found'
      · cases found'
      · obtain ⟨other, found, rfl⟩ := Option.map_eq_some_iff.1 found'
        have absent : ¬other.terms.contains entry = true := fun present => by
          have wrong := anchored.mentions key entry dummy (mentions_iff.2 ⟨other, found, present⟩)
          rw [enters] at wrong
          cases wrong
        rw [Row.substituted, if_neg absent]
        exact anchored.constant key other dummy found

theorem Sheltered.turns (sheltered : t.Sheltered) (exact : t.Exact) (turns : t.Turns t') :
    t'.Sheltered := by
  induction turns with
  | refl => exact sheltered
  | tail before turn ih =>
      obtain ⟨entry, exit, row, rest, pivotal, -, leaves, -, rfl⟩ := turn
      exact Sheltered.pivoted (t := Tableau.awaiting _ rest) ih
        ((Turns.exact before exact).awaiting rest).toWellFormed (pivotal.awaiting rest)
        (Column.restricted_of_pivotable leaves)

theorem Insulated.turns (insulated : t.Insulated) (exact : t.Exact) (turns : t.Turns t') :
    t'.Insulated := by
  induction turns with
  | refl => exact insulated
  | tail before turn ih =>
      obtain ⟨entry, exit, row, rest, pivotal, enters, -, -, rfl⟩ := turn
      exact Insulated.pivoted (t := Tableau.awaiting _ rest) ih
        ((Turns.exact before exact).awaiting rest).toWellFormed (pivotal.awaiting rest)
        (Column.not_dummy_of_pivotable enters)

theorem Insulated.basicSolution_turns (insulated : t.Insulated) (exact : t.Exact)
    (turns : t.Turns t') (dummy : c.isDummy = true) : t'.basicSolution c = t.basicSolution c := by
  induction turns with
  | refl => rfl
  | tail before turn ih =>
      obtain ⟨entry, exit, row, rest, pivotal, enters, -, -, rfl⟩ := turn
      have kept := insulated.turns exact before
      have moved := Insulated.basicSolution_pivoted (t := Tableau.awaiting _ rest) kept
        ((Turns.exact before exact).awaiting rest) (pivotal.awaiting rest)
        (Column.not_dummy_of_pivotable enters) dummy
      exact moved.trans ih

theorem Anchored.turns (anchored : t.Anchored) (exact : t.Exact) (turns : t.Turns t') :
    t'.Anchored := by
  induction turns with
  | refl => exact anchored
  | tail before turn ih =>
      obtain ⟨entry, exit, row, rest, pivotal, enters, -, -, rfl⟩ := turn
      exact Anchored.pivoted (t := Tableau.awaiting _ rest) ⟨ih.mentions, ih.constant⟩
        ((Turns.exact before exact).awaiting rest).toWellFormed (pivotal.awaiting rest)
        (Column.not_dummy_of_pivotable enters)

/-! ### New basic columns -/

section

variable (wf : t.WellFormed) (definable : t.Definable column solved)
include wf definable

/-- A definition that mentions no unknown of the caller may be introduced for any column, and any
definition for an unknown of the caller. -/
theorem Sheltered.introduce (sheltered : t.Sheltered)
    (shelteredRow : column.isExternal = false →
      ∀ c, solved.terms.contains c = true → c.isExternal = false) :
    (t.introduce column solved).Sheltered := by
  intro key c restricted mentioned
  rcases wf.mentions_of_mentions_introduce definable.apart mentioned with
    ⟨same, inSolved⟩ | ⟨-, kept | ⟨touched, inSolved⟩⟩
  · exact shelteredRow (same ▸ Column.not_external_of_restricted restricted) c inSolved
  · exact sheltered key c restricted kept
  · exact shelteredRow (sheltered key column restricted touched) c inSolved

/-- A definition may be introduced for a column that is no dummy, and one by dummies for a dummy. -/
theorem Insulated.introduce (insulated : t.Insulated)
    (dummies : column.isDummy = true → ∀ c, solved.terms.contains c = true → c.isDummy = true) :
    (t.introduce column solved).Insulated := by
  intro key c dummy mentioned
  rcases wf.mentions_of_mentions_introduce definable.apart mentioned with
    ⟨same, inSolved⟩ | ⟨-, kept | ⟨touched, inSolved⟩⟩
  · exact dummies (same ▸ dummy) c inSolved
  · exact insulated key c dummy kept
  · exact dummies (insulated key column dummy touched) c inSolved

end

end SoftSimplex.Tableau
