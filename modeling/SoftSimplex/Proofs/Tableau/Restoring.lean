import SoftSimplex.Proofs.Tableau.Consistent
import SoftSimplex.Proofs.Tableau.Repair

/-!
Repairs of consistent tableaus, with dummies in any row.

A turn in the row of a dummy brings the dummy out of the basis, where it is zero. So the dual method needs no
more than that restricted rows mention no unknown of the caller, that the objective row is optimal, and that
the negative rows are recorded: it makes every restricted row nonnegative, or no assignment obeys the rows
(`Consistent.restored_repair`).
-/

namespace SoftSimplex.Tableau

variable {t u : Tableau Rat} {objective entry exit key c : Column} {goal row : Row Rat}
  {σ : Column → Rat}

/-- An assignment satisfies the equations of all rows but the objectives. -/
def Obeys (t : Tableau Rat) (σ : Column → Rat) : Prop :=
  ∀ key row, t.rows.get? key = some row → key.isObjective = false → σ key = row.eval σ

/-- An assignment that obeys the rows satisfies the objectives too, once they have their values. -/
theorem WellFormed.exists_holds_of_obeys (wf : t.WellFormed) (obeys : t.Obeys σ) :
    ∃ τ, t.Holds τ ∧ ∀ c, c.isObjective = false → τ c = σ c := by
  let τ : Column → Rat := fun c => if c.isObjective then t.extend σ c else σ c
  have plainly {c : Column} (plain : c.isObjective = false) : τ c = σ c := if_neg (by simp [plain])
  refine ⟨τ, fun key row found => ?_, fun c => plainly⟩
  have same : row.eval τ = row.eval σ := Row.eval_congr fun c nonzero =>
    plainly (wf.noObjective key c (mentions_of_coefficient found nonzero))
  rw [same]
  cases plain : key.isObjective with
  | true => exact (if_pos plain).trans (extend_of_basic found σ)
  | false => exact (plainly plain).trans (obeys key row found plain)

/-! ### Given tableaus -/

theorem sheltered_iff : t.Sheltered ↔ ∀ entry ∈ t.rows.toList, entry.1.isRestricted = true →
    ∀ term ∈ entry.2.terms.toList, term.1.isExternal = false := by
  constructor
  · intro sheltered entry member restricted term inRow
    exact sheltered entry.1 term.1 restricted (mentions_iff.2 ⟨entry.2,
      Sorted.Map.get?_eq_some_iff.2 member,
      Sorted.Map.contains_iff.2 ⟨term.2, Sorted.Map.get?_eq_some_iff.2 inRow⟩⟩)
  · intro sheltered key c restricted mentioned
    obtain ⟨row, found, present⟩ := mentions_iff.1 mentioned
    obtain ⟨k, stored⟩ := Sorted.Map.contains_iff.1 present
    exact sheltered (key, row) (Sorted.Map.get?_eq_some_iff.1 found) restricted (c, k)
      (Sorted.Map.get?_eq_some_iff.1 stored)

theorem watched_iff : t.Watched ↔
    (∀ key ∈ t.infeasible.toList, t.isBasic key = true → key.isRestricted = true) ∧
      ∀ entry ∈ t.rows.toList, entry.1.isRestricted = true → entry.2.constant < 0 →
        entry.1 ∈ t.infeasible.toList := by
  constructor
  · exact fun watched => ⟨fun key member => watched.only key (Sorted.Set.mem_toList.1 member),
      fun entry member restricted negative => Sorted.Set.mem_toList.2
        (watched.all entry.1 entry.2 (Sorted.Map.get?_eq_some_iff.2 member) restricted negative)⟩
  · exact fun ⟨only, all⟩ => ⟨fun key member => only key (Sorted.Set.mem_toList.2 member),
      fun key row found restricted negative => Sorted.Set.mem_toList.1
        (all (key, row) (Sorted.Map.get?_eq_some_iff.1 found) restricted negative)⟩

theorem minimal_iff :
    Minimal goal ↔ ∀ term ∈ goal.terms.toList, term.1.isPivotable = true → 0 ≤ term.2 := by
  constructor
  · intro minimal term member pivotable
    have coefficient := Row.coefficient_of_get? (Sorted.Map.get?_eq_some_iff.2 member)
    exact coefficient ▸ minimal term.1 pivotable
  · intro nonneg c pivotable
    by_cases zero : goal.coefficient c = 0
    · exact zero.ge
    · obtain ⟨k, stored⟩ := Sorted.Map.contains_iff.1 (Row.contains_of_coefficient zero)
      rw [Row.coefficient_of_get? stored]
      exact nonneg (c, k) (Sorted.Map.get?_eq_some_iff.1 stored) pivotable

theorem obeys_iff : t.Obeys σ ↔
    ∀ entry ∈ t.rows.toList, entry.1.isObjective = false → σ entry.1 = entry.2.eval σ :=
  ⟨fun obeys entry member => obeys entry.1 entry.2 (Sorted.Map.get?_eq_some_iff.2 member),
    fun equal key row found => equal (key, row) (Sorted.Map.get?_eq_some_iff.1 found)⟩

instance (t : Tableau Rat) (σ : Column → Rat) : Decidable (t.Obeys σ) :=
  decidable_of_iff _ obeys_iff.symm

instance (t : Tableau Rat) : Decidable t.Sheltered := decidable_of_iff _ sheltered_iff.symm

instance (t : Tableau Rat) : Decidable t.Watched := decidable_of_iff _ watched_iff.symm

instance (goal : Row Rat) : Decidable (Minimal goal) := decidable_of_iff _ minimal_iff.symm

instance (t : Tableau Rat) (objective : Column) : Decidable (t.Settles objective) :=
  decidable_of_iff (∃ goal ∈ t.rows.get? objective, Minimal goal) Iff.rfl

/-! ### One turn -/

namespace Mirrors

variable (mirrors : t.Mirrors u)
include mirrors

theorem settles_iff : t.Settles objective ↔ u.Settles objective := by
  rw [Settles, Settles, mirrors.rows]

theorem sheltered_iff : t.Sheltered ↔ u.Sheltered := by
  simp only [Sheltered, mirrors.mentions]

end Mirrors

/-- After a turn in a negative row the negative rows are recorded again, and no other row is. -/
theorem Consistent.watched_pivoted (consistent : t.Consistent) (watched : t.Watched)
    (violated : t.Violated exit row) (cheapest : Cheapest goal row entry) {rest : Sorted.Set Column}
    (fewer : ∀ key ∈ rest, key ∈ t.infeasible)
    (others : ∀ key other, t.rows.get? key = some other → key.isRestricted = true →
      other.constant < 0 → key ≠ exit → key ∈ rest) :
    ((t.awaiting rest).pivoted entry exit row).Watched := by
  have aligned : (t.awaiting rest).Aligned := consistent.aligned
  have exact : (t.awaiting rest).tolerance = some 0 := consistent.exact
  refine ⟨fun key member basic => ?_, fun key other found restricted below =>
    aligned.recorded_pivoted exact violated.negative cheapest.positive others found restricted below⟩
  rw [aligned.mem_infeasible_pivoted exact] at member
  rcases member with ⟨-, other, -, -, violates⟩ | ⟨away, before⟩
  · exact violates.1
  · rw [aligned.get?_pivoted exact] at basic
    split at basic
    · next same => exact same ▸ Column.restricted_of_pivotable cheapest.pivotable
    · rw [if_neg (Ne.symm away), Option.isSome_map] at basic
      exact watched.only key (fewer key before) basic

/-! ### How the method ends -/

/-- What a run of the dual method may come to: no restricted row is negative and the objective row is
optimal, or no admissible assignment satisfies the rows, or it is cut off on an ascent of the mirror. -/
inductive Restored (objective : Column) (rounds : ℕ) (t u : Tableau Rat) :
    Except (Fault Rat) Unit × Tableau Rat → Prop where
  | done {t' : Tableau Rat} (settles : t'.Settles objective)
      (nonneg : ∀ key row, t'.rows.get? key = some row → key.isRestricted = true →
        0 ≤ row.constant) : Restored objective rounds t u (.ok (), t')
  | failed {t' : Tableau Rat} (none : ∀ σ, Admissible σ → ¬t.Holds σ) :
      Restored objective rounds t u (.error .dualFailed, t')
  | unfinished {t' : Tableau Rat} {f : ℕ → Tableau Rat} {entry exit : ℕ → Column} (start : f 0 = u)
      (ascent : Ascent objective f entry exit rounds) :
      Restored objective rounds t u (.error .unfinished, t')

theorem Mirrors.restored_repairWithin (mirrors : t.Mirrors u) (watched : t.Watched)
    (sheltered : u.Sheltered) (settles : u.Settles objective) (plain : objective.isObjective = true)
    (rounds : ℕ) : Restored objective rounds t u ((repairWithin objective rounds).run t) := by
  induction rounds generalizing t u with
  | zero =>
      have resting : Ascent objective (fun _ => u) (fun _ => objective) (fun _ => objective) 0 :=
        .of_exact mirrors.exact _ _
      exact .unfinished (f := fun _ => u) rfl resting
  | succ rounds ih =>
      obtain ⟨goal, stored, minimal⟩ := settles
      rcases watched.nextViolated_cases mirrors.consistent.exact with
        ⟨rest, next, nonneg⟩ | ⟨exit, row, rest, next, violated, fewer, -, others⟩
      · rw [run_repairWithin_of_none next]
        exact .done (mirrors.settles_iff.2 ⟨goal, stored, minimal⟩) nonneg
      · have round := round mirrors.consistent.exact objective rounds next violated.restricted
        have violated' := violated.of_rows_eq mirrors.rows
        generalize (repairWithin objective (rounds + 1)).run t = result at round
        cases round with
        | missing c absent needed =>
            rcases needed with rfl | rfl
            · rw [violated.found] at absent
              cases absent
            · rw [mirrors.rows, stored] at absent
              cases absent
        | @blocked other found blocked =>
            obtain rfl := Option.some.inj (violated.found.symm.trans found)
            refine .failed fun σ admissible holds => ?_
            exact blocked.negative mirrors.exact sheltered violated' ((mirrors.holds_iff σ).1 holds)
              admissible
        | @turned goal' other entry found stored' cheapest pivotal =>
            obtain rfl := Option.some.inj (violated.found.symm.trans found)
            rw [mirrors.rows] at stored'
            obtain rfl := Option.some.inj (stored.symm.trans stored')
            have exact' := mirrors.exact.awaiting rest
            have pivotal' := (mirrors.awaiting rest rest).pivotal pivotal
            obtain ⟨goal', found', coefficients⟩ :=
              exact'.coefficient_goal_pivoted pivotal' stored plain
            have mirrors' := (mirrors.awaiting rest rest).pivoted pivotal
            have remaining := ih mirrors'
              (mirrors.consistent.watched_pivoted watched violated cheapest fewer others)
              (Sheltered.pivoted (t := u.awaiting rest) sheltered exact'.toWellFormed pivotal'
                violated.restricted)
              ⟨goal', found', cheapest.minimal minimal coefficients⟩
            generalize (repairWithin objective rounds).run
              ((t.awaiting rest).pivoted entry exit row) = ended at remaining
            cases remaining with
            | done settles nonneg => exact .done settles nonneg
            | failed none =>
                refine .failed fun σ admissible holds => none σ admissible ?_
                rw [mirrors'.holds_iff, exact'.holds_pivoted pivotal']
                exact (mirrors.holds_iff σ).1 holds
            | unfinished start ascent =>
                refine .unfinished ?_
                  (ascent.cons mirrors.exact stored minimal violated' cheapest start)
                rfl

/-- The dual method makes every restricted row nonnegative and keeps the objective row optimal, or no
admissible assignment obeys the rows. -/
theorem Consistent.restored_repair (consistent : t.Consistent) (sheltered : t.Sheltered)
    (settles : t.Settles objective) (watched : t.Watched) (plain : objective.isObjective = true) :
    (∃ t', (repair objective).run t = (.ok (), t') ∧ t'.Settles objective ∧
      ∀ key row, t'.rows.get? key = some row → key.isRestricted = true → 0 ≤ row.constant) ∨
    ∃ t', (repair objective).run t = (.error .dualFailed, t') ∧
      ∀ σ, Admissible σ → ¬t.Obeys σ := by
  have mirrors := consistent.mirrors
  have restored := mirrors.restored_repairWithin watched (mirrors.sheltered_iff.1 sheltered)
    (mirrors.settles_iff.1 settles) plain t.basisBound
  rw [repair, Step.run_bind_get]
  generalize (repairWithin objective t.basisBound).run t = ended at restored
  cases restored with
  | done settles nonneg => exact .inl ⟨_, rfl, settles, nonneg⟩
  | failed none =>
      refine .inr ⟨_, rfl, fun σ admissible obeys => ?_⟩
      have obeys' : t.tidied.Obeys σ := obeys
      obtain ⟨τ, holds, same⟩ := mirrors.exact.toWellFormed.exists_holds_of_obeys obeys'
      exact none τ (admissible.of_plain same) ((mirrors.holds_iff τ).2 holds)
  | unfinished start ascent =>
      have less := ascent.lt_basisBound plain
      rw [start] at less
      exact absurd (basisBound_tidied_le t) (not_le.2 less)

end SoftSimplex.Tableau
