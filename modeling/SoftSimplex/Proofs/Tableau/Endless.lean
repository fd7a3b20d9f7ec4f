import SoftSimplex.Proofs.Tableau.Inversion
import SoftSimplex.Proofs.Tableau.Restoring

/-!
Repairs without end.

What the dual method does to a tableau is seen by its rows (`Mirrors.result_repairWithin`), and these are known
by the basis (`Path.rows_eq`). So a repair that comes back to a basis never ends (`Workable.endless_of_return`).
There are only so many bases: a repair that is cut off after `basisBound` rounds has come back to one, and no
number of rounds is enough for it (`Workable.endless_of_cut`).
-/

namespace SoftSimplex.Tableau

variable {t u : Tableau Rat} {objective entry exit : Column} {goal row : Row Rat} {i j n : ℕ}

/-- No number of rounds is enough to repair a tableau. -/
def Endless (t : Tableau Rat) (objective : Column) : Prop :=
  ∀ rounds, ((repairWithin objective rounds).run t).1 = .error .unfinished

/-- The dual method can work on a tableau, if without end: the negative rows are recorded, and there is an
objective, optimal or not. -/
structure Workable (t : Tableau Rat) (objective : Column) : Prop extends t.Exact where
  tracked : t.Tracked
  stored : (t.rows.get? objective).isSome

/-! ### What the rows decide -/

/-- Only one column is the first of the cheapest. -/
theorem Cheapest.unique {other : Column} (cheapest : Cheapest goal row entry)
    (cheapest' : Cheapest goal row other) : entry = other := by
  have first := cheapest.first other cheapest'.pivotable cheapest'.positive
  have first' := cheapest'.first entry cheapest.pivotable cheapest.positive
  rcases first.2 (le_antisymm first'.1 first.1) with same | before
  · exact same.symm
  · rcases first'.2 (le_antisymm first.1 first'.1) with same | after
    · exact same
    · exact absurd after (Column.not_before_of_before before)

/-- Nothing is the cheapest to raise a row that nothing raises. -/
theorem Blocked.not_cheapest (blocked : Blocked row) : ¬Cheapest goal row entry := by
  intro cheapest
  exact absurd cheapest.positive (not_lt.2 (blocked entry cheapest.pivotable))

/-! ### Rounds -/

namespace Workable

variable {rest : Sorted.Set Column} (workable : t.Workable objective)
include workable

theorem pivoted (plain : objective.isObjective = true) (taken : t.Taken exit row rest)
    (cheapest : Cheapest goal row entry) :
    ((t.awaiting rest).pivoted entry exit row).Workable objective := by
  have exact := workable.toExact.awaiting rest
  have recast := exact.recast_pivoted ((taken.pivotal cheapest).awaiting rest) cheapest.pivotable
  refine ⟨recast.exact, taken.tracked cheapest workable.toExact, ?_⟩
  rw [recast.objectives objective plain]
  exact workable.stored

/-- A round fails at a row that nothing raises, or it makes a turn. -/
theorem run_round (next : t.nextViolated = (some exit, t.awaiting rest))
    (taken : t.Taken exit row rest) (rounds : ℕ) :
    (Blocked row ∧
      (repairWithin objective (rounds + 1)).run t = (.error .dualFailed, t.awaiting rest)) ∨
    ∃ goal entry, t.rows.get? objective = some goal ∧ Cheapest goal row entry ∧
      (repairWithin objective (rounds + 1)).run t =
        (repairWithin objective rounds).run ((t.awaiting rest).pivoted entry exit row) := by
  have round := workable.round objective rounds next taken.restricted
  generalize (repairWithin objective (rounds + 1)).run t = result at round
  cases round with
  | missing c absent needed =>
      have present : (t.rows.get? c).isSome := by
        rcases needed with rfl | rfl
        · rw [taken.found]
          rfl
        · exact workable.stored
      rw [absent] at present
      cases present
  | blocked found blocked =>
      obtain rfl := Option.some.inj (taken.found.symm.trans found)
      exact .inl ⟨blocked, rfl⟩
  | turned found stored cheapest _ =>
      obtain rfl := Option.some.inj (taken.found.symm.trans found)
      exact .inr ⟨_, _, stored, cheapest, rfl⟩

/-- A round is the last one, or it makes a turn, and it is the same however many rounds are left. -/
theorem round_cases (plain : objective.isObjective = true) :
    (∃ outcome, outcome.1 ≠ .error .unfinished ∧
      ∀ rounds, (repairWithin objective (rounds + 1)).run t = outcome) ∨
    ∃ entry exit row rest, t.Pivotal entry exit row ∧
      ((t.awaiting rest).pivoted entry exit row).Workable objective ∧
      ∀ rounds, (repairWithin objective (rounds + 1)).run t =
        (repairWithin objective rounds).run ((t.awaiting rest).pivoted entry exit row) := by
  rcases workable.nextViolated_cases workable.tracked with
    ⟨rest, next, -⟩ | ⟨exit, row, rest, next, taken⟩
  · left
    exact ⟨_, by simp, fun rounds => run_repairWithin_of_none next⟩
  rcases workable.run_round next taken 0 with ⟨blocked, -⟩ | ⟨goal, entry, stored, cheapest, -⟩
  · left
    refine ⟨(.error .dualFailed, t.awaiting rest), by simp, ?_⟩
    intro rounds
    rcases workable.run_round next taken rounds with ⟨-, ran⟩ | ⟨_, _, -, cheapest, -⟩
    · exact ran
    · exact absurd cheapest blocked.not_cheapest
  · right
    refine ⟨entry, exit, row, rest, taken.pivotal cheapest, workable.pivoted plain taken cheapest, ?_⟩
    intro rounds
    rcases workable.run_round next taken rounds with ⟨blocked, -⟩ | ⟨_, _, stored', cheapest', ran⟩
    · exact absurd cheapest blocked.not_cheapest
    · obtain rfl := Option.some.inj (stored.symm.trans stored')
      obtain rfl := cheapest.unique cheapest'
      exact ran

end Workable

/-- What the dual method comes to does not depend on what awaits repair beside the negative rows, nor on
anything else but the rows. -/
theorem Workable.result_repairWithin (workable : t.Workable objective)
    (workable' : u.Workable objective) (plain : objective.isObjective = true)
    (same : t.rows = u.rows) (rounds : ℕ) :
    ((repairWithin objective rounds).run t).1 = ((repairWithin objective rounds).run u).1 := by
  induction rounds generalizing t u with
  | zero => rfl
  | succ rounds ih =>
      have mirrors : t.Mirrors u := ⟨workable.consistent, workable'.toExact, same⟩
      rcases workable.nextViolated_cases workable.tracked with
        ⟨rest, next, nonneg⟩ | ⟨exit, row, rest, next, taken⟩ <;>
      rcases workable'.nextViolated_cases workable'.tracked with
        ⟨rest', next', nonneg'⟩ | ⟨exit', row', rest', next', taken'⟩
      · rw [run_repairWithin_of_none next, run_repairWithin_of_none next']
      · have below := nonneg exit' row' (same ▸ taken'.found) taken'.restricted
        exact absurd below (not_le.2 taken'.negative)
      · have below := nonneg' exit row (same ▸ taken.found) taken.restricted
        exact absurd below (not_le.2 taken.negative)
      · obtain ⟨rfl, rfl⟩ := (taken.toViolated.of_rows_eq same).unique taken'.toViolated
        rcases workable.run_round next taken rounds with
          ⟨blocked, ran⟩ | ⟨goal, entry, stored, cheapest, ran⟩ <;>
        rcases workable'.run_round next' taken' rounds with
          ⟨blocked', ran'⟩ | ⟨goal', entry', stored', cheapest', ran'⟩
        · rw [ran, ran']
        · exact absurd cheapest' blocked.not_cheapest
        · exact absurd cheapest blocked'.not_cheapest
        · rw [same] at stored
          obtain rfl := Option.some.inj (stored.symm.trans stored')
          obtain rfl := cheapest.unique cheapest'
          have pivotal := (taken.pivotal cheapest).awaiting rest
          rw [ran, ran']
          exact ih (workable.pivoted plain taken cheapest) (workable'.pivoted plain taken' cheapest)
            ((mirrors.awaiting rest rest').pivoted pivotal).rows

theorem Endless.of_rows_eq (endless : t.Endless objective) (workable : t.Workable objective)
    (workable' : u.Workable objective) (plain : objective.isObjective = true)
    (same : t.rows = u.rows) : u.Endless objective := by
  intro rounds
  rw [← workable.result_repairWithin workable' plain same]
  exact endless rounds

/-! ### Rounds that come back -/

/-- On a path the basis determines the rows. -/
theorem Path.rows_eq {f : ℕ → Tableau Rat} {entries exits : ℕ → Column}
    (path : Path f entries exits n) (first : i ≤ n) (second : j ≤ n)
    (basis : ∀ c, ((f i).rows.get? c).isSome = ((f j).rows.get? c).isSome) :
    (f i).rows = (f j).rows := by
  have exact := path.exact first
  have exact' := path.exact second
  have values (σ : Column → Rat) : (f i).extend σ = (f j).extend σ := by
    refine exact.toWellFormed.extend_eq exact'.toWellFormed basis (fun τ => ?_) σ
    rw [path.holds first, path.holds second]
  refine Sorted.Map.ext_get? fun key => ?_
  have stored := basis key
  cases found : (f i).rows.get? key with
  | none =>
      rw [found] at stored
      cases found' : (f j).rows.get? key with
      | none => rfl
      | some row' =>
          rw [found'] at stored
          cases stored
  | some row =>
      rw [found] at stored
      obtain ⟨row', found'⟩ := Option.isSome_iff_exists.1 stored.symm
      have agree (σ : Column → Rat) : row.eval σ = row'.eval σ := by
        rw [← extend_of_basic found, ← extend_of_basic found', values]
      have constants : row.constant = row'.constant := by
        rw [← Row.eval_zero, ← Row.eval_zero, agree]
      have coefficients (c : Column) : row.coefficient c = row'.coefficient c := by
        have moved := agree (Function.update (fun _ => 0) c 1)
        rw [Row.eval_update_assignment, Row.eval_update_assignment, agree] at moved
        linarith
      rw [found', Row.eq_of_coefficient_eq (exact.toWellFormed.coupled.stored_ne_zero found)
        (exact'.toWellFormed.coupled.stored_ne_zero found') constants coefficients]

/-- The tableaus that a repair goes through while it is not cut off. -/
theorem Workable.exists_path (workable : t.Workable objective) (plain : objective.isObjective = true)
    (cut : ((repairWithin objective n).run t).1 = .error .unfinished) :
    ∃ f entries exits, Path f entries exits n ∧ f 0 = t ∧ ∀ m ≤ n, (f m).Workable objective ∧
      ∀ rounds, (repairWithin objective (m + rounds)).run t = (repairWithin objective rounds).run (f m) := by
  induction n generalizing t with
  | zero =>
      refine ⟨fun _ => t, fun _ => objective, fun _ => objective,
        .of_exact workable.toExact _ _, rfl, ?_⟩
      intro m small
      obtain rfl := Nat.le_zero.1 small
      exact ⟨workable, fun rounds => by rw [Nat.zero_add]⟩
  | succ n ih =>
      rcases workable.round_cases plain with
        ⟨outcome, ended, ran⟩ | ⟨entry, exit, row, rest, pivotal, workable', ran⟩
      · rw [ran] at cut
        exact absurd cut ended
      rw [ran] at cut
      obtain ⟨f, entries, exits, path, start, passes⟩ := ih workable' cut
      refine ⟨preceded t f, _, _, path.cons workable.toExact pivotal start, rfl, ?_⟩
      intro m small
      cases m with
      | zero => exact ⟨workable, fun rounds => by rw [Nat.zero_add]; rfl⟩
      | succ m =>
          obtain ⟨workable'', later⟩ := passes m (Nat.le_of_succ_le_succ small)
          refine ⟨workable'', fun rounds => ?_⟩
          rw [Nat.succ_add_eq_add_succ, Nat.add_succ, ran, later]
          rfl

/-- A repair that comes back to rows that it left never ends. -/
private theorem endless_of_rows (plain : objective.isObjective = true) {f : ℕ → Tableau Rat} (less : i < j)
    (passes : ∀ m ≤ j, (f m).Workable objective ∧ ∀ rounds,
      (repairWithin objective (m + rounds)).run t = (repairWithin objective rounds).run (f m))
    (same : (f i).rows = (f j).rows) : t.Endless objective := by
  -- Up to the place that is come back to, there are turns to make.
  have turning (m : ℕ) (small : m ≤ j) :
      ((repairWithin objective m).run t).1 = .error .unfinished := by
    rw [← Nat.add_zero m, (passes m small).2 0]
    rfl
  obtain ⟨workableI, fromI⟩ := passes i less.le
  obtain ⟨workableJ, fromJ⟩ := passes j le_rfl
  have around (rounds : ℕ) :
      ((repairWithin objective (i + rounds)).run t).1 = .error .unfinished := by
    induction rounds using Nat.strong_induction_on with
    | _ rounds ih =>
        by_cases short : i + rounds ≤ j
        · exact turning _ short
        · obtain ⟨later, rfl⟩ : ∃ later, rounds = j - i + later := ⟨rounds - (j - i), by omega⟩
          have once : i + (j - i + later) = j + later := by omega
          rw [once, fromJ, ← workableI.result_repairWithin workableJ plain same, ← fromI]
          exact ih later (by omega)
  intro rounds
  by_cases before : rounds ≤ i
  · exact turning rounds (before.trans less.le)
  · obtain ⟨later, rfl⟩ := Nat.exists_eq_add_of_le (not_le.1 before).le
    exact around later

/-- A repair that comes back to a basis never ends. -/
theorem Workable.endless_of_return (workable : t.Workable objective)
    (plain : objective.isObjective = true) (less : i < j)
    (cut : ((repairWithin objective j).run t).1 = .error .unfinished)
    (basis : ((repairWithin objective i).run t).2.rows.keys =
      ((repairWithin objective j).run t).2.rows.keys) : t.Endless objective := by
  obtain ⟨f, entries, exits, path, -, passes⟩ := workable.exists_path plain cut
  have place (m : ℕ) (small : m ≤ j) : ((repairWithin objective m).run t).2 = f m := by
    rw [← Nat.add_zero m, (passes m small).2 0]
    rfl
  rw [place i less.le, place j le_rfl] at basis
  refine endless_of_rows plain less passes (path.rows_eq less.le le_rfl fun c => ?_)
  rw [Bool.eq_iff_iff, ← Sorted.Map.mem_keys_iff, ← Sorted.Map.mem_keys_iff, basis]

/-- A repair that is cut off never ends. -/
theorem Workable.endless_of_cut (workable : t.Workable objective)
    (plain : objective.isObjective = true)
    (cut : ((repair objective).run t).1 = .error .unfinished) : t.Endless objective := by
  rw [repair, Step.run_bind_get] at cut
  obtain ⟨f, entries, exits, path, start, passes⟩ := workable.exists_path plain cut
  obtain ⟨i, j, less, bound, basis⟩ := path.exists_same_basis (by rw [start])
  exact endless_of_rows plain less (fun m small => passes m (small.trans bound))
    (path.rows_eq (less.le.trans bound) bound basis)

/-- The dual method answers, or fails at a row that nothing raises, or never ends, which it does only if the
objective row is not optimal. -/
theorem Workable.repair_cases (workable : t.Workable objective)
    (plain : objective.isObjective = true) :
    ((repair objective).run t).1 = .ok () ∨ ((repair objective).run t).1 = .error .dualFailed ∨
      ((repair objective).run t).1 = .error .unfinished ∧ t.Endless objective ∧
        ¬t.Settles objective := by
  have ending := repaired_repair workable.toExact workable.tracked workable.stored plain
  generalize ran : (repair objective).run t = ended at ending
  cases ending with
  | done repairs nonneg => exact .inl rfl
  | failed turns taken blocked => exact .inr (.inl rfl)
  | unfinished ascends =>
      have cut : ((repair objective).run t).1 = .error .unfinished := by rw [ran]
      exact .inr (.inr ⟨rfl, workable.endless_of_cut plain cut, not_settles_of_ascends plain ascends⟩)

end SoftSimplex.Tableau
