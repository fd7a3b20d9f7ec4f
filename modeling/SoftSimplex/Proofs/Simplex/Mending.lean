import SoftSimplex.Proofs.Simplex.Moving

/-!
Repairing a solver whose targets moved.

Moving targets leaves a settled solver with constants that may be wrong and nothing else (`Mendable`).
Repair then makes every restricted row nonnegative (`Upright`), or it fails, and no assignment meets the
required constraints (`Priced.repaired`). It does not look at dummies that moved away from zero: an
upright solver is settled if some assignment meets the required constraints (`Mendable.settled`), and else
it is not.
-/

namespace SoftSimplex

open Tableau

variable {posed : List Posed} {x : Variable → Rat}

namespace Tableau

variable {t t' : Tableau Rat} {σ : Column → Rat}

/-- Only constants keep a tableau from being shaped, its objective row is optimal, and its negative rows
are recorded. -/
structure Mendable (t : Tableau Rat) : Prop where
  sheltered : t.Sheltered
  insulated : t.Insulated
  optimized : t.Optimized
  tracked : t.Tracked

/-- Where no row is negative, none has to be recorded. -/
theorem Upright.tracked (upright : t.Upright) (recorded : t.Recorded) : t.Tracked :=
  ⟨recorded, fun key row found restricted negative =>
    absurd (upright key row found restricted) (not_le.2 negative)⟩

/-- A shaped tableau in which only restricted rows are recorded is mendable. -/
theorem Shaped.mendable (shaped : t.Shaped) (optimized : t.Optimized) (recorded : t.Recorded) :
    t.Mendable where
  sheltered := shaped.sheltered
  insulated := shaped.anchored.mentions
  optimized := optimized
  tracked := shaped.upright.tracked recorded

namespace Mendable

variable (mendable : t.Mendable)
include mendable

theorem of_alike (alike : t.Alike t') (tracked : t'.Tracked) : t'.Mendable where
  sheltered := alike.sheltered mendable.sheltered
  insulated := alike.insulated mendable.insulated
  optimized _ found := alike.minimal mendable.optimized found
  tracked := tracked

theorem repairable (exact : t.Exact) (stored : (t.rows.get? .objective).isSome) :
    t.Repairable .objective := by
  obtain ⟨goal, found⟩ := Option.isSome_iff_exists.1 stored
  exact ⟨exact, mendable.insulated, mendable.tracked, goal, found, mendable.optimized goal found⟩

/-- Where some admissible assignment holds, the dummies of an upright tableau are at zero. -/
theorem shaped (upright : t.Upright) (holds : t.Holds σ) (admissible : Admissible σ) : t.Shaped where
  sheltered := mendable.sheltered
  anchored :=
    { mentions := mendable.insulated
      constant := fun key row dummy found => by
        have zero := admissible.zero key dummy
        rw [holds key row found] at zero
        rw [← zero, ← row.eval_zero]
        refine Row.eval_congr fun d nonzero => ?_
        exact (admissible.zero d
          (mendable.insulated key d dummy (mentions_of_coefficient found nonzero))).symm }
  feasible _ pivotable := upright.nonneg (Column.restricted_of_pivotable pivotable)

end Mendable

end Tableau

namespace Simplex

variable {s : Simplex Rat}

theorem Settled.mendable (settled : s.Settled posed) : s.tableau.Mendable :=
  settled.shaped.mendable settled.optimized settled.recorded

/-- An assignment that meets the required constraints is completed to one that holds. -/
theorem Priced.exists_admissible (priced : s.Priced posed) (meets : MeetsRequired posed x) :
    ∃ σ, s.tableau.Holds σ ∧ Admissible σ := by
  obtain ⟨k, carries⟩ := priced.carries
  have equations := (carries.family.completed meets).1
  exact ⟨_, carries.represents.holds_withObjectiveOf carries.family equations,
    (Family.admissible_completion posed x).withObjectiveOf _⟩

/-- Where some assignment meets the required constraints, an upright solver is settled. -/
theorem Priced.settled (priced : s.Priced posed) (mendable : s.tableau.Mendable)
    (upright : s.tableau.Upright) (done : s.needsOptimize = false) (meets : MeetsRequired posed x) :
    s.Settled posed := by
  obtain ⟨σ, holds, admissible⟩ := priced.exists_admissible meets
  exact ⟨priced, mendable.shaped upright holds admissible, mendable.optimized,
    mendable.tracked.only, done⟩

/-- Where the same assignments hold, the same constraints are priced. -/
theorem Priced.recast (priced : s.Priced posed) {t' : Tableau Rat} (recast : s.tableau.Recast t') :
    (s.withTableau t').Priced posed := by
  obtain ⟨k, carries⟩ := priced.carries
  refine ⟨⟨k, ⟨recast.exact, fun σ => (recast.holds σ).trans (carries.represents.holds σ),
    carries.represents.blind, ?_, ?_⟩, carries.family, fun c known => ?_, carries.below⟩,
    priced.registered⟩
  · exact (recast.objectives .objective rfl).trans carries.represents.stored
  · have same := recast.objectives .artificialObjective rfl
    rw [carries.represents.idle] at same
    exact Option.not_isSome_iff_eq_none.1 (Bool.eq_false_iff.1 same)
  · exact carries.fresh c (recast.scope_eq ▸ known)

/-- What repairing comes to. -/
inductive Repair (s : Simplex Rat) (posed : List Posed) :
    Except (Fault Rat) Unit × Simplex Rat → Prop where
  | done {t' : Tableau Rat} {rest : Sorted.Set Column} (priced : (s.withTableau t').Priced posed)
      (mendable : t'.Mendable) (upright : t'.Upright) :
      Repair s posed (.ok (), s.withTableau (t'.awaiting rest))
  | failed {t' : Tableau Rat} (priced : (s.withTableau t').Priced posed)
      (abandoned : ∃ exit row, t'.Abandoned exit row) (unmet : ∀ x, ¬MeetsRequired posed x) :
      Repair s posed (.error .dualFailed, s.withTableau t')

/-- Repairing a mendable solver makes it upright, or fails where no assignment meets the required
constraints. -/
theorem Priced.repaired (priced : s.Priced posed) (mendable : s.tableau.Mendable) :
    Repair s posed (repair.run s) := by
  have exact := priced.exact
  obtain ⟨goal, found⟩ := priced.stored
  have repairable := mendable.repairable exact (Option.isSome_of_eq_some found)
  rcases run_repair repairable rfl with
    ⟨t', rest, ran, turns, repairable', upright⟩ | ⟨t', rest, exit, row, ran, turns, taken, blocked⟩
  · have after : repair.run s = (.ok (), s.withTableau (t'.awaiting rest)) := run_onTableau_of_ok ran
    rw [after]
    refine .done (priced.withTurns turns) ⟨mendable.sheltered.turns exact turns,
      repairable'.insulated, fun goal' found' => ?_, repairable'.tracked⟩ upright
    obtain ⟨goal'', found'', minimal⟩ := repairable'.minimal
    rw [found'] at found''
    cases found''
    exact minimal
  · have after : repair.run s = (.error .dualFailed, s.withTableau (t'.awaiting rest)) :=
      run_onTableau_of_error ran
    rw [after]
    refine .failed ((priced.withTurns turns).awaiting rest)
      ⟨exit, row, taken.abandoned blocked⟩ fun x meets => ?_
    obtain ⟨σ, holds, admissible⟩ := priced.exists_admissible meets
    exact blocked.negative (turns.exact exact) (mendable.sheltered.turns exact turns)
      taken.toViolated ((turns.holds exact σ).2 holds) admissible

end Simplex

end SoftSimplex
