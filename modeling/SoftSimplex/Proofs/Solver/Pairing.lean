import SoftSimplex.Proofs.Solver.Projecting

/-!
The two columns of an optional constraint.

Whatever callers do to an exact solver, the columns that mark an optional constraint stand for one quantity
with opposite signs, up to the objective (`pairing_spec`). Suggestions, resetting the stays and taking back
rely on it: what one of the columns takes up, the other one cannot.
-/

namespace SoftSimplex

namespace Tableau

variable {t : Tableau Rat} {a b c d : Column}

/-- The row of a column has another column with coefficient one, and no other row has it, objectives
apart. -/
def Beside (t : Tableau Rat) (c d : Column) : Prop :=
  ∀ row, t.rows.get? c = some row → row.coefficient d = 1 ∧
    ∀ key, key.isObjective = false → key ≠ c → ¬t.Mentions key d

/-- Two columns stand for one quantity with opposite signs. -/
structure Opposed (t : Tableau Rat) (a b : Column) : Prop where
  apart : a ≠ b
  once : ¬((t.rows.get? a).isSome ∧ (t.rows.get? b).isSome)
  left : t.Beside a b
  right : t.Beside b a
  opposite : t.rows.get? a = none → t.rows.get? b = none → ∀ key row, key.isObjective = false →
    t.rows.get? key = some row → row.coefficient b = -row.coefficient a

theorem Paired.opposed (paired : t.Paired a b) (wf : t.WellFormed) (apart : a ≠ b)
    (left : a.isObjective = false) (right : b.isObjective = false) : t.Opposed a b where
  apart := apart
  once := fun ⟨basic, also⟩ => by
    obtain ⟨row, found⟩ := Option.isSome_iff_exists.1 basic
    rw [(paired.of_basic wf apart left found).1] at also
    cases also
  left _ found := (paired.of_basic wf apart left found).2
  right _ found := (paired.symm.of_basic wf apart.symm right found).2
  opposite outside also _ _ plain found := paired.of_outside outside also plain found

end Tableau

namespace Solver

open Tableau

variable {config : Config Rat} {s : Solver Rat} {tag : Tag} {i : Installed Rat} {w : Rat}

/-- After any operations on an exact solver, answered or failed, every optional constraint that is
installed has two columns, which are never both basic: beside the one that is, the other stands with
coefficient one and nowhere else, and if none is, their coefficients are opposite in every row but the
objective. -/
theorem pairing_spec (tolerance : config.tolerance = some 0)
    (performs : (create config).Performs .free s) (found : s.installed.get? tag = some i)
    (weighs : i.markers.weight = some w) :
    ∃ sub, i.markers.sub = some sub ∧ s.tableau.Opposed i.markers.main sub := by
  have created : (create config).Coherent False .free :=
    coherent_create tolerance le_rfl False.elim
  obtain ⟨coherent, recalls⟩ := performs.minds created
  have exact : s.tableau.tolerance = some 0 :=
    recalls.tolerance.trans (tolerance_create tolerance le_rfl)
  have fits := coherent.fits tag i found
  obtain ⟨sub, pair⟩ := fits.exists_pair (by rw [weighs]; rfl)
  obtain ⟨-, apart, left, right⟩ := fits.of_pair pair
  refine ⟨sub, pair.sub, (coherent.orderly.paired exact _ _ ⟨_, ⟨tag, i, found, rfl⟩, pair⟩).opposed
    coherent.sound.toWellFormed apart.symm ?_ ?_⟩
  · exact Column.not_objective_of_pivotable left
  · exact Column.not_objective_of_pivotable right

/-- An unknown is to be ten. -/
def mustBeTen : Constraint Rat where
  tag := .given 2
  left := .variable ⟨"x", 0⟩
  comparator := .eq
  right := .constant 10

/-- The solver that keeps an unknown below two, which had better be at least five, and that refused to let
it be ten. -/
def reluctant : Solver Rat := (create exactSettings).performed
  [.command (.add atMostTwo), .command (.add atLeastFive), .command (.add mustBeTen)]

/-- Where the wish falls short its error is basic, and the row of the error has its slack. -/
theorem pairing_spec_reluctant :
    let slack : Column := .symbol ⟨.slack, "s2", 3⟩
    let error : Column := .symbol ⟨.slack, "e1", 4⟩
    ((add mustBeTen).run wistful).1.isOk = false ∧ reluctant.tableau.isBasic error = true ∧
      reluctant.tableau.Opposed slack error := by
  intro slack error
  have markers : (reluctant.installed.get? atLeastFive.tag).map (fun i =>
      (i.markers.main, i.markers.sub, i.markers.weight)) = some (slack, some error, some 751) := by
    decide +kernel
  obtain ⟨i, found, same⟩ := Option.map_eq_some_iff.1 markers
  obtain ⟨main, pair⟩ := Prod.mk.inj same
  obtain ⟨own, weighs⟩ := Prod.mk.inj pair
  have performs : (create exactSettings).Performs .free reluctant := performs_performed _ _
  obtain ⟨sub, listed, opposed⟩ := pairing_spec rfl performs found weighs
  obtain rfl : error = sub := Option.some.inj (own.symm.trans listed)
  exact ⟨by decide +kernel, by decide +kernel, main ▸ opposed⟩

end Solver

end SoftSimplex
