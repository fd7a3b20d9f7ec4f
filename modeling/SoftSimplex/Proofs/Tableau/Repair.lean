import SoftSimplex.Proofs.Tableau.Minimization
import SoftSimplex.Tableau.Dual

/-!
The dual simplex method.

Each round makes a turn in the first negative row, which raises the objective or keeps its row
(`Ascent`). No ascent comes back to a basis (`Ascent.no_cycle`), so the method ends within `basisBound`
rounds (`run_repair`), with no restricted row negative, or at a row that shows that no admissible
assignment holds (`Blocked.negative`). It relies on every negative row being recorded (`Tracked`). The row
at which it fails is not recorded any more, and all other negative rows still are (`abandoned_of_repair`).
-/

namespace SoftSimplex.Tableau

variable {t t' : Tableau Rat} {objective entry exit key c : Column} {goal row : Row Rat}

/-! ### Choosing the columns -/

/-- The negative restricted rows are recorded, and nothing that may be negative is. -/
structure Tracked (t : Tableau Rat) : Prop where
  only : ∀ key ∈ t.infeasible, key.isRestricted = true
  all : ∀ key row, t.rows.get? key = some row → key.isRestricted = true → row.constant < 0 →
    key ∈ t.infeasible

/-- The negative restricted rows are recorded, and of the rows that are recorded all are restricted. What is
recorded need not have a row. -/
structure Watched (t : Tableau Rat) : Prop where
  only : ∀ key ∈ t.infeasible, (t.rows.get? key).isSome → key.isRestricted = true
  all : ∀ key row, t.rows.get? key = some row → key.isRestricted = true → row.constant < 0 →
    key ∈ t.infeasible

theorem Tracked.watched (tracked : t.Tracked) : t.Watched :=
  ⟨fun key member _ => tracked.only key member, tracked.all⟩

/-- A row is the first of the negative restricted rows. -/
structure Violated (t : Tableau Rat) (exit : Column) (row : Row Rat) : Prop where
  found : t.rows.get? exit = some row
  restricted : exit.isRestricted = true
  negative : row.constant < 0
  first : ∀ key other, t.rows.get? key = some other → key.isRestricted = true →
    other.constant < 0 → key = exit ∨ compare exit key = .lt

/-- The first negative row was taken from those that await repair, and the others still await it. -/
structure Taken (t : Tableau Rat) (exit : Column) (row : Row Rat) (rest : Sorted.Set Column) : Prop
    extends t.Violated exit row where
  only : ∀ key ∈ rest, key.isRestricted = true
  others : ∀ key other, t.rows.get? key = some other → key.isRestricted = true →
    other.constant < 0 → key ≠ exit → key ∈ rest
  unrecorded : exit ∉ rest

/-- A column is the first of those that raise a row at the least cost to the objective. -/
structure Cheapest (goal row : Row Rat) (entry : Column) : Prop where
  pivotable : entry.isPivotable = true
  positive : 0 < row.coefficient entry
  first : ∀ c, c.isPivotable = true → 0 < row.coefficient c →
    Precedes (entry, goal.coefficient entry / row.coefficient entry)
      (c, goal.coefficient c / row.coefficient c)

/-- No pivotable column raises a row. -/
def Blocked (row : Row Rat) : Prop := ∀ c, c.isPivotable = true → row.coefficient c ≤ 0

/-- Only one row is the first of the negative ones. -/
theorem Violated.unique {exit' : Column} {row' : Row Rat} (violated : t.Violated exit row)
    (violated' : t.Violated exit' row') : exit = exit' ∧ row = row' := by
  have same : exit = exit' := by
    rcases violated.first exit' row' violated'.found violated'.restricted violated'.negative with
      same | after
    · exact same.symm
    · rcases violated'.first exit row violated.found violated.restricted violated.negative with
        same | before
      · exact same
      · exact absurd before (Column.not_before_of_before after)
  subst same
  exact ⟨rfl, Option.some.inj (violated.found.symm.trans violated'.found)⟩

/-- Which row is the first negative one is seen by the rows. -/
theorem Violated.of_rows_eq (violated : t.Violated exit row) (same : t.rows = t'.rows) :
    t'.Violated exit row where
  found := same ▸ violated.found
  restricted := violated.restricted
  negative := violated.negative
  first := same ▸ violated.first

theorem isRepaired_iff (exact : t.tolerance = some 0) (key : Column) :
    t.isRepaired key = true ↔ ∀ row, t.rows.get? key = some row → 0 ≤ row.constant := by
  unfold isRepaired
  cases t.rows.get? key with
  | none => simp
  | some row => simp [exact]

/-- Dropping a prefix drops nothing, everything, or stops at the first element that fails. -/
private theorem dropWhile_cases {α : Type} (p : α → Bool) (l : List α) :
    (l.dropWhile p = [] ∧ ∀ a ∈ l, p a = true) ∨
      ∃ before a after, l = before ++ a :: after ∧ l.dropWhile p = a :: after ∧ p a = false ∧
        ∀ b ∈ before, p b = true := by
  induction l with
  | nil => simp
  | cons a rest ih =>
      cases holds : p a with
      | false => exact .inr ⟨[], a, rest, rfl, by simp [holds], holds, by simp⟩
      | true =>
          rw [List.dropWhile_cons_of_pos holds]
          rcases ih with ⟨dropped, all⟩ | ⟨before, b, after, split, dropped, fails, all⟩
          · exact .inl ⟨dropped, by simpa [holds] using all⟩
          · exact .inr ⟨a :: before, b, after, by rw [split, List.cons_append], dropped, fails,
              by simpa [holds] using all⟩

/-- The next row to repair is the first negative one, if there is one, and the others stay recorded. -/
theorem Watched.nextViolated_cases (watched : t.Watched) (exact : t.tolerance = some 0) :
    (∃ rest, t.nextViolated = (none, t.awaiting rest) ∧
      ∀ key row, t.rows.get? key = some row → key.isRestricted = true → 0 ≤ row.constant) ∨
    ∃ exit row rest, t.nextViolated = (some exit, t.awaiting rest) ∧ t.Violated exit row ∧
      (∀ key ∈ rest, key ∈ t.infeasible) ∧ exit ∉ rest ∧
      ∀ key other, t.rows.get? key = some other → key.isRestricted = true → other.constant < 0 →
        key ≠ exit → key ∈ rest := by
  have ordered : t.infeasible.toList.Pairwise fun a b => compare a b = .lt :=
    List.pairwise_map.2 t.infeasible.entries.increasing
  have recorded : ∀ key other, t.rows.get? key = some other → key.isRestricted = true →
      other.constant < 0 → key ∈ t.infeasible.toList := fun key other found restricted negative =>
    Sorted.Set.mem_toList.2 (watched.all key other found restricted negative)
  have unrepaired : ∀ key other, t.rows.get? key = some other → other.constant < 0 →
      ¬t.isRepaired key = true := fun key other found negative repaired =>
    absurd ((isRepaired_iff exact key).1 repaired other found) (not_le.2 negative)
  rcases dropWhile_cases t.isRepaired t.infeasible.toList with
    ⟨dropped, all⟩ | ⟨before, exit, after, split, dropped, fails, passed⟩
  · refine .inl ⟨_, by rw [nextViolated, dropped]; rfl, fun key row found restricted => ?_⟩
    by_contra below
    have member := recorded key row found restricted (not_le.1 below)
    exact unrepaired key row found (not_le.1 below) (all key member)
  · have negative : ∃ row, t.rows.get? exit = some row ∧ row.constant < 0 := by
      by_contra none
      refine Bool.eq_false_iff.1 fails ((isRepaired_iff exact exit).2 fun row found => ?_)
      by_contra below
      exact none ⟨row, found, not_le.1 below⟩
    obtain ⟨row, found, below⟩ := negative
    have later : ∀ key other, t.rows.get? key = some other → key.isRestricted = true →
        other.constant < 0 → key ∈ exit :: after := by
      intro key other found restricted negative
      have member := recorded key other found restricted negative
      rw [split] at member
      exact (List.mem_append.1 member).resolve_left fun inBefore =>
        unrepaired key other found negative (passed key inBefore)
    have waits : ∀ key ∈ exit :: after, key ∈ t.infeasible := fun key member =>
      Sorted.Set.mem_toList.1 (split ▸ List.mem_append_right before member)
    rw [split] at ordered
    have above := (List.pairwise_cons.1 (List.pairwise_append.1 ordered).2.1).1
    refine .inr ⟨exit, row, .ofList after, by rw [nextViolated, dropped]; rfl,
      ⟨found, watched.only exit (waits exit List.mem_cons_self) (by rw [found]; rfl), below,
        fun key other found restricted negative => ?_⟩, fun key member => ?_, fun again => ?_,
      fun key other found restricted negative different => ?_⟩
    · exact (List.mem_cons.1 (later key other found restricted negative)).imp_right (above key)
    · exact waits key (List.mem_cons_of_mem _ (Sorted.Set.mem_ofList.1 member))
    · exact Column.not_before_self exit (above exit (Sorted.Set.mem_ofList.1 again))
    · exact Sorted.Set.mem_ofList.2
        ((List.mem_cons.1 (later key other found restricted negative)).resolve_left different)

theorem Exact.nextViolated_cases (exact : t.Exact) (tracked : t.Tracked) :
    (∃ rest, t.nextViolated = (none, t.awaiting rest) ∧
      ∀ key row, t.rows.get? key = some row → key.isRestricted = true → 0 ≤ row.constant) ∨
    ∃ exit row rest, t.nextViolated = (some exit, t.awaiting rest) ∧ t.Taken exit row rest := by
  refine (tracked.watched.nextViolated_cases exact.exact).imp_right ?_
  rintro ⟨exit, row, rest, next, violated, fewer, unrecorded, others⟩
  exact ⟨exit, row, rest, next, violated, fun key member => tracked.only key (fewer key member),
    others, unrecorded⟩

/-- The entering column is found unless nothing raises the row, which depends on the tolerance. -/
theorem entryCosts_cases {e : Rat} (tolerance : t.tolerance = some e) (nonneg : 0 ≤ e)
    (goal row : Row Rat) :
    ∃ costs, t.entryCosts goal row = .ok costs ∧
      ((leastRatio? costs = none ∧ ∀ c, c.isPivotable = true → row.coefficient c ≤ e) ∨
        ∃ entry cost, leastRatio? costs = some (entry, cost) ∧ entry.isPivotable = true ∧
          e < row.coefficient entry ∧ ∀ c, c.isPivotable = true → e < row.coefficient c →
            Precedes (entry, goal.coefficient entry / row.coefficient entry)
              (c, goal.coefficient c / row.coefficient c)) := by
  have positive (k : Rat) : t.isPositive k = true ↔ e < k := isPositive_iff tolerance k
  let terms := row.terms.toList.filter fun term => t.isPositive term.2 && term.1.isPivotable
  have mem_terms : ∀ c k, (c, k) ∈ terms ↔
      row.coefficient c = k ∧ e < k ∧ c.isPivotable = true := by
    intro c k
    rw [List.mem_filter, Bool.and_eq_true, positive]
    constructor
    · rintro ⟨stored, above, pivotable⟩
      exact ⟨Row.coefficient_of_get? (Sorted.Map.get?_eq_some_iff.2 stored), above, pivotable⟩
    · rintro ⟨rfl, above, pivotable⟩
      obtain ⟨k, found⟩ := Sorted.Map.contains_iff.1
        (Row.contains_of_coefficient (nonneg.trans_lt above).ne')
      rw [Row.coefficient_of_get? found] at above ⊢
      exact ⟨Sorted.Map.get?_eq_some_iff.1 found, above, pivotable⟩
  have answer : t.entryCosts goal row =
      .ok (terms.map fun term => (term.1, goal.coefficient term.1 / term.2)) := by
    refine mapM_eq_ok fun term member => ?_
    have above := nonneg.trans_lt ((mem_terms term.1 term.2).1 member).2.1
    simp only [Scalar.quotient?_of_ne_zero above.ne', Step.checked_rat]
    rfl
  refine ⟨_, answer, ?_⟩
  cases least : leastRatio? (terms.map fun term => (term.1, goal.coefficient term.1 / term.2)) with
  | none =>
      refine .inl ⟨rfl, fun c pivotable => ?_⟩
      by_contra above
      have member := (mem_terms c _).2 ⟨rfl, not_le.1 above, pivotable⟩
      rw [List.map_eq_nil_iff.1 (leastRatio?_eq_none.1 least)] at member
      cases member
  | some chosen =>
      have ordered : InOrder (terms.map fun term => (term.1, goal.coefficient term.1 / term.2)) :=
        List.pairwise_map.2 (row.terms.increasing.filter _)
      obtain ⟨member, precedes⟩ := leastRatio?_spec ordered least
      obtain ⟨⟨entry, k⟩, inTerms, rfl⟩ := List.mem_map.1 member
      obtain ⟨rfl, above, pivotable⟩ := (mem_terms entry k).1 inTerms
      exact .inr ⟨entry, _, rfl, pivotable, above, fun c pivotable' above' =>
        precedes _ (List.mem_map.2 ⟨(c, _), (mem_terms c _).2 ⟨rfl, above', pivotable'⟩, rfl⟩)⟩

theorem cheapest_cases (exact : t.tolerance = some 0) (goal row : Row Rat) :
    ∃ costs, t.entryCosts goal row = .ok costs ∧
      ((leastRatio? costs = none ∧ Blocked row) ∨
        ∃ entry cost, leastRatio? costs = some (entry, cost) ∧ Cheapest goal row entry) := by
  obtain ⟨costs, computed, blocked | ⟨entry, cost, least, pivotable, positive, first⟩⟩ :=
    Tableau.entryCosts_cases exact le_rfl goal row
  · exact ⟨costs, computed, .inl blocked⟩
  · exact ⟨costs, computed, .inr ⟨entry, cost, least, pivotable, positive, first⟩⟩

theorem Exact.entryCosts_cases (exact : t.Exact) (goal row : Row Rat) :
    ∃ costs, t.entryCosts goal row = .ok costs ∧
      ((leastRatio? costs = none ∧ Blocked row) ∨
        ∃ entry cost, leastRatio? costs = some (entry, cost) ∧ Cheapest goal row entry) :=
  cheapest_cases exact.exact goal row

/-! ### One turn -/

theorem Violated.pivotal (violated : t.Violated exit row) (cheapest : Cheapest goal row entry) :
    t.Pivotal entry exit row :=
  ⟨violated.found, Row.contains_of_coefficient cheapest.positive.ne',
    Column.not_objective_of_restricted violated.restricted⟩

/-- Nothing pivotable raises the row of a dummy in an insulated tableau, so what leaves is pivotable. -/
theorem Violated.pivotable (violated : t.Violated exit row) (insulated : t.Insulated)
    (cheapest : Cheapest goal row entry) : exit.isPivotable = true := by
  refine (Column.pivotable_or_dummy violated.restricted).resolve_right fun dummy => ?_
  have mentioned := mentions_of_coefficient violated.found cheapest.positive.ne'
  have wrong := insulated exit entry dummy mentioned
  rw [Column.not_dummy_of_pivotable cheapest.pivotable] at wrong
  cases wrong

/-- The objective row after a turn. -/
theorem Exact.coefficient_goal_pivoted (exact : t.Exact) (pivotal : t.Pivotal entry exit row)
    (found : t.rows.get? objective = some goal) (plain : objective.isObjective = true) :
    ∃ goal', (t.pivoted entry exit row).rows.get? objective = some goal' ∧
      ∀ c, goal'.coefficient c =
        if c = entry then 0
        else if c = exit then goal.coefficient entry / row.coefficient entry
        else goal.coefficient c -
          goal.coefficient entry / row.coefficient entry * row.coefficient c := by
  have exitNe : objective ≠ exit := by
    rintro rfl
    rw [pivotal.plain] at plain
    cases plain
  have entryNe : objective ≠ entry := by
    rintro rfl
    rw [exact.entry_not_basic pivotal] at found
    cases found
  have exitZero : goal.coefficient exit = 0 := exact.coefficient_of_basic found pivotal.basic
  refine ⟨_, by rw [exact.get?_pivoted_of_ne row entryNe exitNe, found, Option.map_some],
    fun c => ?_⟩
  rw [Row.coefficient_substituted goal (exact.definable pivotal).apart, Row.coefficient_pivoted,
    Row.coefficient_solvedFor]
  by_cases isEntry : c = entry
  · simp [isEntry]
  · rw [if_neg (Ne.symm isEntry), if_neg isEntry]
    by_cases isExit : c = exit
    · rw [if_pos isExit.symm, if_pos isExit, isExit, exitZero]
      ring
    · rw [if_neg (Ne.symm isExit), if_neg isExit, if_neg (Ne.symm isEntry)]
      ring

/-- The least cost keeps the objective row from falling below zero anywhere. -/
theorem Cheapest.minimal (cheapest : Cheapest goal row entry) (minimal : Minimal goal)
    {goal' : Row Rat} (coefficients : ∀ c, goal'.coefficient c =
      if c = entry then 0
      else if c = exit then goal.coefficient entry / row.coefficient entry
      else goal.coefficient c -
        goal.coefficient entry / row.coefficient entry * row.coefficient c) : Minimal goal' := by
  intro c pivotable
  have cost := div_nonneg (minimal entry cheapest.pivotable) cheapest.positive.le
  rw [coefficients c]
  split
  · exact le_rfl
  · split
    · exact cost
    · have own := minimal c pivotable
      by_cases raises : 0 < row.coefficient c
      · have least := (cheapest.first c pivotable raises).1
        dsimp only at least
        have scaled := mul_le_mul_of_nonneg_right least raises.le
        rw [div_mul_cancel₀ _ raises.ne'] at scaled
        linarith
      · have lowers := mul_nonpos_of_nonneg_of_nonpos cost (not_lt.1 raises)
        linarith

/-- After a turn in a negative row the negative rows are recorded again. -/
theorem Aligned.recorded_pivoted (aligned : t.Aligned) (exact : t.tolerance = some 0)
    (negative : row.constant < 0) (positive : 0 < row.coefficient entry)
    (others : ∀ key other, t.rows.get? key = some other → key.isRestricted = true →
      other.constant < 0 → key ≠ exit → key ∈ t.infeasible)
    {other : Row Rat} (found : (t.pivoted entry exit row).rows.get? key = some other)
    (restricted : key.isRestricted = true) (below : other.constant < 0) :
    key ∈ (t.pivoted entry exit row).infeasible := by
  rw [aligned.mem_infeasible_pivoted exact]
  rw [aligned.get?_pivoted exact] at found
  split at found
  · cases found
    have raised : 0 < row.constant * -(1 / row.coefficient entry) :=
      mul_pos_of_neg_of_neg negative (neg_lt_zero.2 (one_div_pos.2 positive))
    rw [Row.constant_pivoted] at below
    linarith
  · split at found
    · cases found
    · next away =>
        obtain ⟨old, foundOld, rfl⟩ := Option.map_eq_some_iff.1 found
        by_cases touched : old.terms.contains entry = true
        · exact .inl ⟨Ne.symm away, old, foundOld, touched, restricted, by simpa using below⟩
        · rw [Row.substituted, if_neg touched] at below
          exact .inr ⟨Ne.symm away, others key old foundOld restricted below (Ne.symm away)⟩

/-- After a turn the negative rows are recorded again. -/
theorem Taken.tracked {rest : Sorted.Set Column} (taken : t.Taken exit row rest)
    (cheapest : Cheapest goal row entry) (exact : t.Exact) :
    ((t.awaiting rest).pivoted entry exit row).Tracked := by
  have exactRest := exact.awaiting rest
  constructor
  · intro key member
    rcases (exactRest.mem_infeasible_pivoted entry exit row key).1 member with
      ⟨-, other, -, -, violates⟩ | ⟨-, before⟩
    · exact violates.1
    · exact taken.only key before
  · exact fun key other found restricted below => exactRest.aligned.recorded_pivoted exactRest.exact
      taken.negative cheapest.positive taken.others found restricted below

/-! ### Ascents -/

/-- A path of turns that the dual method makes. -/
structure Ascent (objective : Column) (f : ℕ → Tableau Rat) (entry exit : ℕ → Column) (n : ℕ) :
    Prop extends Path f entry exit n where
  choice : ∀ m < n, ∃ goal row rest, (f m).rows.get? objective = some goal ∧ Minimal goal ∧
    (f m).Violated (exit m) row ∧ Cheapest goal row (entry m) ∧
    f (m + 1) = ((f m).awaiting rest).pivoted (entry m) (exit m) row

namespace Ascent

variable {f : ℕ → Tableau Rat} {entry exit : ℕ → Column} {n m : ℕ}
  (ascent : Ascent objective f entry exit n) (plain : objective.isObjective = true)
include ascent plain

/-- The objective does not fall, and if it stays then the entering column costs nothing and the
objective row stays. -/
theorem raises (bound : m < n) (goal : Row Rat) (found : (f m).rows.get? objective = some goal) :
    goal.constant ≤ (f (m + 1)).basicSolution objective ∧
      ((f (m + 1)).basicSolution objective = goal.constant →
        goal.coefficient (entry m) = 0 ∧
          ∃ goal', (f (m + 1)).rows.get? objective = some goal' ∧
            ∀ c, goal'.coefficient c = goal.coefficient c) := by
  obtain ⟨goal', row, rest, found', minimal, violated, cheapest, next⟩ := ascent.choice m bound
  rw [found] at found'
  cases found'
  have exact := (ascent.exact bound.le).awaiting rest
  have pivotal := (violated.pivotal cheapest).awaiting rest
  have grown : 0 < -row.constant / row.coefficient (entry m) :=
    div_pos (neg_pos.2 violated.negative) cheapest.positive
  have cost := minimal (entry m) cheapest.pivotable
  rw [next, exact.basicSolution_pivoted pivotal, ray_of_basic (t := (f m).awaiting rest) found]
  refine ⟨le_add_of_nonneg_right (mul_nonneg cost grown.le), fun same => ?_⟩
  have free : goal.coefficient (entry m) = 0 := by
    have product : goal.coefficient (entry m) * (-row.constant / row.coefficient (entry m)) = 0 := by
      linarith
    exact (mul_eq_zero.1 product).resolve_right grown.ne'
  refine ⟨free, ?_⟩
  obtain ⟨goal', found', coefficients⟩ := exact.coefficient_goal_pivoted pivotal found plain
  refine ⟨goal', found', fun c => ?_⟩
  rw [coefficients c, free]
  split
  · next same => rw [same, free]
  · split
    · next same =>
        rw [same, exact.coefficient_of_basic (t := (f m).awaiting rest) found pivotal.basic, zero_div]
    · rw [zero_div, zero_mul, sub_zero]

omit plain in
theorem stored (bound : m < n) : ∃ goal, (f m).rows.get? objective = some goal := by
  obtain ⟨goal, -, -, found, -⟩ := ascent.choice m bound
  exact ⟨goal, found⟩

omit plain in
/-- The first turns of an ascent are an ascent. -/
theorem shorter (bound : m ≤ n) : Ascent objective f entry exit m where
  start := ascent.start
  turn k small := ascent.turn k (small.trans_le bound)
  choice k small := ascent.choice k (small.trans_le bound)

theorem raises_from (bound : m ≤ n) :
    (f m).basicSolution objective ≤ (f n).basicSolution objective := by
  induction n, bound using Nat.le_induction with
  | base => exact le_rfl
  | succ n le ih =>
      obtain ⟨goal, found⟩ := ascent.stored (Nat.lt_succ_self n)
      refine (ih (ascent.shorter (Nat.le_succ n))).trans ?_
      rw [basicSolution_of_basic found]
      exact (ascent.raises plain (Nat.lt_succ_self n) goal found).1

/-- On a cycle the objective row stays, and what enters costs nothing. -/
theorem costs_nothing (cycle : Cycle f entry exit n) (bound : m < n) (goal : Row Rat)
    (found : (f m).rows.get? objective = some goal) :
    goal.coefficient (entry m) = 0 ∧ ∀ goal₀, (f 0).rows.get? objective = some goal₀ →
      ∀ c, goal.coefficient c = goal₀.coefficient c := by
  have closed : (f n).basicSolution = (f 0).basicSolution :=
    (ascent.exact le_rfl).toWellFormed.extend_eq ascent.start.toWellFormed
      (fun c => (cycle.closed c).symm) (ascent.holds le_rfl) _
  have level (m : ℕ) (bound : m ≤ n) :
      (f m).basicSolution objective = (f 0).basicSolution objective := by
    refine le_antisymm ?_ ((ascent.shorter bound).raises_from plain (Nat.zero_le m))
    rw [← closed]
    exact ascent.raises_from plain bound
  have stays (m : ℕ) (bound : m < n) (goal : Row Rat)
      (found : (f m).rows.get? objective = some goal) :
      (f (m + 1)).basicSolution objective = goal.constant := by
    rw [level (m + 1) bound, ← level m bound.le, basicSolution_of_basic found]
  refine ⟨((ascent.raises plain bound goal found).2 (stays m bound goal found)).1, ?_⟩
  induction m generalizing goal with
  | zero =>
      intro goal₀ found₀ c
      rw [found] at found₀
      cases found₀
      rfl
  | succ m ih =>
      intro goal₀ found₀ c
      have small : m < n := Nat.lt_of_succ_lt bound
      obtain ⟨before, foundBefore⟩ := ascent.stored small
      obtain ⟨-, goal', found', same⟩ :=
        (ascent.raises plain small before foundBefore).2 (stays m small before foundBefore)
      rw [found] at found'
      cases found'
      rw [same, ih small before foundBefore goal₀ found₀ c]

/-- No ascent is a cycle. At the last fickle column `q` two places are compared: where `q` enters in
the row of a column `p`, and where `q` leaves. At the basic solution of the second place that row
would have to be negative, because no fickle column before `q` raises it; but `p` comes before `q`,
and so is not negative there. -/
theorem no_cycle (cycle : Cycle f entry exit n) : False := by
  obtain ⟨m, boundM, last⟩ := cycle.exists_last
  obtain ⟨k, boundK, leaves⟩ := cycle.exists_exit boundM
  obtain ⟨goal, row, -, foundGoal, -, violated, cheapest, -⟩ := ascent.choice m boundM
  obtain ⟨-, row', -, -, -, violated', -, -⟩ := ascent.choice k boundK
  have exactM := ascent.exact boundM.le
  have holds : (f m).Holds (f k).basicSolution := by
    rw [ascent.holds boundM.le, ← ascent.holds boundK.le]
    exact (ascent.exact boundK.le).holds_basicSolution
  -- What is restricted and comes before the last fickle column is not negative where that leaves.
  have before_nonneg : ∀ c, c.isRestricted = true → compare c (entry m) = .lt →
      0 ≤ (f k).basicSolution c := by
    intro c restricted less
    cases found : (f k).rows.get? c with
    | none => rw [basicSolution_of_not_basic found]
    | some other =>
        rw [basicSolution_of_basic found]
        by_contra below
        rw [← leaves] at less
        rcases violated'.first c other found restricted (not_le.1 below) with same | after
        · rw [same] at less
          exact Column.not_before_self _ less
        · exact Column.not_before_of_before after less
  have terms : ∀ c, row.coefficient c * (f k).basicSolution c ≤ 0 := by
    intro c
    by_cases zero : row.coefficient c = 0
    · rw [zero, zero_mul]
    have outside : (f m).rows.get? c = none :=
      exactM.not_basic (mentions_of_coefficient violated.found zero)
    cases found : (f k).rows.get? c with
    | none => rw [basicSolution_of_not_basic found, mul_zero]
    | some other =>
        obtain ⟨j, boundJ, fickle⟩ :=
          cycle.fickle_of_change boundK.le boundM.le (by rw [found]; rfl) outside
        obtain ⟨goalJ, rowJ, -, foundJ, -, -, cheapestJ, -⟩ := ascent.choice j boundJ
        have pivotable : c.isPivotable = true := fickle ▸ cheapestJ.pivotable
        rcases last j boundJ with same | less
        · rw [fickle, ← leaves] at same
          rw [same, basicSolution_of_basic violated'.found, leaves]
          exact (mul_neg_of_pos_of_neg cheapest.positive violated'.negative).le
        · rw [fickle] at less
          refine mul_nonpos_of_nonpos_of_nonneg ?_
            (before_nonneg c (Column.restricted_of_pivotable pivotable) less)
          by_contra raises
          obtain ⟨goal₀, found₀⟩ := ascent.stored cycle.positive
          obtain ⟨freeM, sameM⟩ := ascent.costs_nothing plain cycle boundM goal foundGoal
          obtain ⟨freeJ, sameJ⟩ := ascent.costs_nothing plain cycle boundJ goalJ foundJ
          have free : goal.coefficient c = 0 := by
            rw [sameM goal₀ found₀, ← sameJ goal₀ found₀, ← fickle, freeJ]
          have first := (cheapest.first c pivotable (not_le.1 raises)).2 (by simp [free, freeM])
          rcases first with same | after
          · dsimp only at same
            rw [same] at less
            exact Column.not_before_self _ less
          · exact Column.not_before_of_before after less
  obtain ⟨j, boundJ, enters⟩ := cycle.exists_entry boundM
  have before : compare (exit m) (entry m) = .lt := by
    rcases last j boundJ with same | less
    · rw [enters] at same
      exact absurd same.symm (exactM.entry_ne_exit (violated.pivotal cheapest))
    · rwa [enters] at less
  have nonnegative := before_nonneg (exit m) violated.restricted before
  rw [holds (exit m) row violated.found] at nonnegative
  have upper := Row.eval_le_constant terms
  have negative := violated.negative
  linarith

/-- An ascent is shorter than the number of bases. -/
theorem lt_basisBound : n < (f 0).basisBound := by
  by_contra long
  obtain ⟨i, m, bound, cycle⟩ := ascent.exists_cycle (not_lt.1 long)
  have part : Ascent objective (fun k => f (i + k)) (fun k => entry (i + k))
      (fun k => exit (i + k)) m :=
    { toPath := cycle.toPath
      choice := fun k small => ascent.choice (i + k) (by omega) }
  exact part.no_cycle plain cycle

end Ascent

/-! ### One round -/

/-- What a round of the dual method may come to, once a row was taken: a row that it needs is missing,
nothing raises the one that was taken, or it turns and goes on. -/
inductive Round (objective : Column) (rounds : ℕ) (t : Tableau Rat) (exit : Column)
    (rest : Sorted.Set Column) : Except (Fault Rat) Unit × Tableau Rat → Prop where
  | missing (c : Column) (absent : t.rows.get? c = none) (needed : c = exit ∨ c = objective) :
      Round objective rounds t exit rest (.error (.missing c), t.awaiting rest)
  | blocked {row : Row Rat} (found : t.rows.get? exit = some row) (blocked : Blocked row) :
      Round objective rounds t exit rest (.error .dualFailed, t.awaiting rest)
  | turned {goal row : Row Rat} {entry : Column} (found : t.rows.get? exit = some row)
      (stored : t.rows.get? objective = some goal) (cheapest : Cheapest goal row entry)
      (pivotal : (t.awaiting rest).Pivotal entry exit row) :
      Round objective rounds t exit rest
        ((repairWithin objective rounds).run ((t.awaiting rest).pivoted entry exit row))

theorem round {rest : Sorted.Set Column} (exact : t.tolerance = some 0) (objective : Column)
    (rounds : ℕ) (next : t.nextViolated = (some exit, t.awaiting rest))
    (restricted : exit.isRestricted = true) :
    Round objective rounds t exit rest ((repairWithin objective (rounds + 1)).run t) := by
  have exact' : (t.awaiting rest).tolerance = some 0 := exact
  have tolerant : (t.awaiting rest).tolerance.isNone = false := by
    rw [exact']
    rfl
  rw [repairWithin, Step.run_bind_get]
  simp only [next, Step.run_bind_set, tolerant, rows_awaiting, Bool.false_eq_true, if_false]
  cases found : t.rows.get? exit with
  | none => exact .missing exit found (.inl rfl)
  | some row =>
      cases stored : t.rows.get? objective with
      | none => exact .missing objective stored (.inr rfl)
      | some goal =>
          obtain ⟨costs, computed, cases⟩ := Tableau.cheapest_cases exact' goal row
          simp only [Step.run_bind_ofOption_some, computed, Step.run_bind_ofExcept_ok]
          rcases cases with ⟨least, blocked⟩ | ⟨entry, cost, least, cheapest⟩
          · simp only [least]
            rw [Step.run_bind_of_ok (run_snapshot _ _), Step.run_failStep]
            exact .blocked found blocked
          · have pivotal : (t.awaiting rest).Pivotal entry exit row :=
              ⟨found, Row.contains_of_coefficient cheapest.positive.ne',
                Column.not_objective_of_restricted restricted⟩
            have answered := pivotal.pivot_eq exact' cheapest.positive.ne'
            simp only [least]
            rw [Step.run_bind_of_ok (by rw [Step.run, answered])]
            exact .turned found stored cheapest pivotal

theorem Exact.round {rest : Sorted.Set Column} (exact : t.Exact) (objective : Column) (rounds : ℕ)
    (next : t.nextViolated = (some exit, t.awaiting rest)) (restricted : exit.isRestricted = true) :
    Round objective rounds t exit rest ((repairWithin objective (rounds + 1)).run t) :=
  Tableau.round exact.exact objective rounds next restricted

/-- A round that finds no row to repair is the last one. -/
theorem run_repairWithin_of_none {rounds : ℕ} {rest : Sorted.Set Column}
    (next : t.nextViolated = (none, t.awaiting rest)) :
    (repairWithin objective (rounds + 1)).run t = (.ok (), t.awaiting rest) := by
  rw [repairWithin, Step.run_bind_get]
  simp only [next, Step.run_bind_set, Step.run_return]

/-! ### How the method ends -/

/-- An objective has a row, and it is optimal. -/
def Settles (t : Tableau Rat) (objective : Column) : Prop :=
  ∃ goal, t.rows.get? objective = some goal ∧ Minimal goal

/-- The dual method can work: the objective row is optimal, the negative rows are recorded, and no dummy
depends on what a turn moves. -/
structure Repairable (t : Tableau Rat) (objective : Column) : Prop extends t.Exact where
  insulated : t.Insulated
  tracked : t.Tracked
  minimal : t.Settles objective

/-- What a run of the dual method may come to where the negative rows are recorded: no restricted row is
negative, or nothing raises one, or it is cut off. From a tableau with an optimal objective row it makes
turns, and it is cut off on an ascent. -/
inductive Repaired (objective : Column) (rounds : ℕ) (t : Tableau Rat) :
    Except (Fault Rat) Unit × Tableau Rat → Prop where
  | done {t' : Tableau Rat} {rest : Sorted.Set Column}
      (repairs : t.Repairable objective → t.Turns t' ∧ t'.Repairable objective)
      (nonneg : ∀ key row, t'.rows.get? key = some row → key.isRestricted = true →
        0 ≤ row.constant) : Repaired objective rounds t (.ok (), t'.awaiting rest)
  | failed {t' : Tableau Rat} {rest : Sorted.Set Column} {exit : Column} {row : Row Rat}
      (turns : t.Repairable objective → t.Turns t') (taken : t'.Taken exit row rest)
      (blocked : Blocked row) : Repaired objective rounds t (.error .dualFailed, t'.awaiting rest)
  | unfinished {t' : Tableau Rat} (ascends : t.Settles objective →
        ∃ f entry exit, f 0 = t ∧ Ascent objective f entry exit rounds) :
      Repaired objective rounds t (.error .unfinished, t')

/-- A turn keeps a tableau repairable. -/
private theorem Repairable.pivoted (repairable : t.Repairable objective)
    (plain : objective.isObjective = true) {rest : Sorted.Set Column} (taken : t.Taken exit row rest)
    (found : t.rows.get? objective = some goal) (cheapest : Cheapest goal row entry) :
    ((t.awaiting rest).pivoted entry exit row).Repairable objective := by
  have exact := repairable.toExact.awaiting rest
  have pivotal := (taken.pivotal cheapest).awaiting rest
  obtain ⟨goal', found', coefficients⟩ := exact.coefficient_goal_pivoted pivotal found plain
  obtain ⟨goal₀, found₀, minimal⟩ := repairable.minimal
  rw [found] at found₀
  cases found₀
  refine ⟨exact.pivoted pivotal, ?_, taken.tracked cheapest repairable.toExact,
    goal', found', cheapest.minimal minimal coefficients⟩
  exact Insulated.pivoted (t := t.awaiting rest) repairable.insulated exact.toWellFormed pivotal
    (Column.not_dummy_of_pivotable cheapest.pivotable)

/-- A tableau is an ascent without turns. -/
theorem Ascent.of_exact (exact : t.Exact) (entries exits : ℕ → Column) :
    Ascent objective (fun _ => t) entries exits 0 where
  toPath := .of_exact exact entries exits
  choice m small := absurd small (Nat.not_lt_zero m)

/-- A turn before an ascent makes it longer by one. -/
theorem Ascent.cons {f : ℕ → Tableau Rat} {entries exits : ℕ → Column} {n : ℕ}
    (ascent : Ascent objective f entries exits n) (exact : t.Exact)
    (found : t.rows.get? objective = some goal) (minimal : Minimal goal)
    (violated : t.Violated exit row) (cheapest : Cheapest goal row entry)
    {rest : Sorted.Set Column} (joined : f 0 = (t.awaiting rest).pivoted entry exit row) :
    Ascent objective (preceded t f) (preceded entry entries) (preceded exit exits) (n + 1) where
  toPath := ascent.toPath.cons exact (violated.pivotal cheapest) joined
  choice m bound := by
    cases m with
    | zero => exact ⟨goal, row, rest, found, minimal, violated, cheapest, joined⟩
    | succ m => exact ascent.choice m (Nat.lt_of_succ_lt_succ bound)

theorem repaired_repairWithin (exact : t.Exact) (tracked : t.Tracked)
    (stored : (t.rows.get? objective).isSome) (plain : objective.isObjective = true) (rounds : ℕ) :
    Repaired objective rounds t ((repairWithin objective rounds).run t) := by
  induction rounds generalizing t with
  | zero =>
      exact .unfinished fun _ => ⟨fun _ => t, fun _ => objective, fun _ => objective, rfl,
        .of_exact exact _ _⟩
  | succ rounds ih =>
      obtain ⟨goal, stored⟩ := Option.isSome_iff_exists.1 stored
      rcases exact.nextViolated_cases tracked with
        ⟨rest, next, nonneg⟩ | ⟨exit, row, rest, next, taken⟩
      · rw [run_repairWithin_of_none next]
        exact .done (fun repairable => ⟨.refl, repairable⟩) nonneg
      · have round := exact.round objective rounds next taken.restricted
        generalize (repairWithin objective (rounds + 1)).run t = result at round
        cases round with
        | missing c absent needed =>
            rcases needed with rfl | rfl
            · rw [taken.found] at absent
              cases absent
            · rw [stored] at absent
              cases absent
        | @blocked other found blocked =>
            obtain rfl := Option.some.inj (taken.found.symm.trans found)
            exact .failed (fun _ => .refl) taken blocked
        | @turned goal' other entry found stored' cheapest pivotal =>
            obtain rfl := Option.some.inj (taken.found.symm.trans found)
            obtain rfl := Option.some.inj (stored.symm.trans stored')
            have exact' := (exact.awaiting rest).pivoted pivotal
            obtain ⟨goal', found', coefficients⟩ :=
              (exact.awaiting rest).coefficient_goal_pivoted pivotal stored plain
            have turn (repairable : t.Repairable objective) :
                t.Turn ((t.awaiting rest).pivoted entry exit row) :=
              ⟨entry, exit, row, rest, taken.pivotal cheapest, cheapest.pivotable,
                taken.pivotable repairable.insulated cheapest, fun _ => taken.only, rfl⟩
            have next (repairable : t.Repairable objective) :=
              repairable.pivoted plain taken stored cheapest
            have remaining := ih exact' (taken.tracked cheapest exact) (by rw [found']; rfl)
            generalize (repairWithin objective rounds).run
              ((t.awaiting rest).pivoted entry exit row) = ended at remaining
            cases remaining with
            | done repairs nonneg =>
                exact .done (fun repairable => ⟨.head (turn repairable) (repairs (next repairable)).1,
                  (repairs (next repairable)).2⟩) nonneg
            | failed turns taken blocked =>
                exact .failed (fun repairable => .head (turn repairable) (turns (next repairable)))
                  taken blocked
            | unfinished ascends =>
                refine .unfinished fun ⟨goal₀, found₀, minimal⟩ => ?_
                obtain rfl := Option.some.inj (stored.symm.trans found₀)
                obtain ⟨f, entries, exits, start, ascent⟩ :=
                  ascends ⟨goal', found', cheapest.minimal minimal coefficients⟩
                exact ⟨preceded t f, _, _, rfl,
                  ascent.cons exact stored minimal taken.toViolated cheapest start⟩

/-- At a row that nothing raises no admissible assignment holds. -/
theorem Blocked.negative {σ : Column → Rat} (blocked : Blocked row) (exact : t.Exact)
    (sheltered : t.Sheltered) (violated : t.Violated exit row) (holds : t.Holds σ) :
    ¬Admissible σ := by
  intro admissible
  have nonneg := admissible.restricted violated.restricted
  rw [holds exit row violated.found] at nonneg
  have upper : row.eval σ ≤ row.constant := by
    refine Row.eval_le_constant fun c => ?_
    by_cases zero : row.coefficient c = 0
    · rw [zero, zero_mul]
    have mentioned := mentions_of_coefficient violated.found zero
    have restricted := Column.restricted_of_internal
      (sheltered exit c violated.restricted mentioned) (exact.noObjective exit c mentioned)
    rcases Column.pivotable_or_dummy restricted with pivotable | dummy
    · exact mul_nonpos_of_nonpos_of_nonneg (blocked c pivotable) (admissible.nonneg c pivotable)
    · rw [admissible.zero c dummy, mul_zero]
  have negative := violated.negative
  linarith

/-- An ascent from an optimal objective row is not as long as the number of bases. -/
theorem not_settles_of_ascends (plain : objective.isObjective = true)
    (ascends : t.Settles objective →
      ∃ f entry exit, f 0 = t ∧ Ascent objective f entry exit t.basisBound) :
    ¬t.Settles objective := by
  intro settles
  obtain ⟨f, entry, exit, rfl, ascent⟩ := ascends settles
  exact absurd (ascent.lt_basisBound plain) (lt_irrefl _)

theorem repaired_repair (exact : t.Exact) (tracked : t.Tracked)
    (stored : (t.rows.get? objective).isSome) (plain : objective.isObjective = true) :
    Repaired objective t.basisBound t ((repair objective).run t) := by
  rw [repair, Step.run_bind_get]
  exact repaired_repairWithin exact tracked stored plain t.basisBound

/-- What the dual method comes to: it makes every restricted row nonnegative, or it fails at a row that
no pivotable column raises. -/
theorem run_repair (repairable : t.Repairable objective) (plain : objective.isObjective = true) :
    (∃ t' rest, (repair objective).run t = (.ok (), t'.awaiting rest) ∧ t.Turns t' ∧
      t'.Repairable objective ∧ ∀ key row, t'.rows.get? key = some row → key.isRestricted = true →
        0 ≤ row.constant) ∨
    ∃ t' rest exit row, (repair objective).run t = (.error .dualFailed, t'.awaiting rest) ∧
      t.Turns t' ∧ t'.Taken exit row rest ∧ Blocked row := by
  obtain ⟨goal, stored, -⟩ := repairable.minimal
  have ending := repaired_repair repairable.toExact repairable.tracked (by rw [stored]; rfl) plain
  generalize (repair objective).run t = ended at ending
  cases ending with
  | done repairs nonneg =>
      obtain ⟨turns, repairable'⟩ := repairs repairable
      exact .inl ⟨_, _, rfl, turns, repairable', nonneg⟩
  | failed turns taken blocked => exact .inr ⟨_, _, _, _, rfl, turns repairable, taken, blocked⟩
  | unfinished ascends => exact absurd repairable.minimal (not_settles_of_ascends plain ascends)

/-- Where nothing is recorded nothing is repaired. -/
theorem run_repair_of_unrecorded (nothing : ∀ key, key ∉ t.infeasible) :
    (repair objective).run t = (.ok (), t.awaiting ∅) := by
  have empty : t.infeasible.toList = [] := List.eq_nil_iff_forall_not_mem.2 fun key member =>
    nothing key (Sorted.Set.mem_toList.1 member)
  have next : t.nextViolated = (none, t.awaiting ∅) := by
    rw [nextViolated, empty]
    rfl
  obtain ⟨rounds, bound⟩ : ∃ rounds, t.basisBound = rounds + 1 :=
    Nat.exists_eq_succ_of_ne_zero (Nat.pow_pos Nat.zero_lt_two).ne'
  rw [repair, Step.run_bind_get, bound, run_repairWithin_of_none next]

/-! ### Rows that are given up -/

/-- A restricted row is negative, nothing pivotable raises it, and it does not await repair; all other
negative rows do. -/
structure Abandoned (t : Tableau Rat) (exit : Column) (row : Row Rat) : Prop
    extends t.Violated exit row where
  blocked : Blocked row
  unrecorded : exit ∉ t.infeasible
  others : ∀ key other, t.rows.get? key = some other → key.isRestricted = true →
    other.constant < 0 → key ≠ exit → key ∈ t.infeasible

theorem Taken.abandoned {rest : Sorted.Set Column} (taken : t.Taken exit row rest)
    (blocked : Blocked row) : (t.awaiting rest).Abandoned exit row :=
  ⟨⟨taken.found, taken.restricted, taken.negative, taken.first⟩, blocked, taken.unrecorded,
    taken.others⟩

/-- Whatever its objective, a tableau whose negative rows are recorded forgets the row at which the dual
method fails, and no other. -/
theorem abandoned_of_repairWithin {rounds : ℕ} (exact : t.Exact) (tracked : t.Tracked)
    (failed : (repairWithin objective rounds).run t = (.error .dualFailed, t')) :
    ∃ exit row, t'.Abandoned exit row := by
  induction rounds generalizing t with
  | zero => cases failed
  | succ rounds ih =>
      rcases exact.nextViolated_cases tracked with
        ⟨rest, next, -⟩ | ⟨exit, row, rest, next, taken⟩
      · rw [run_repairWithin_of_none next] at failed
        cases failed
      · have round := exact.round objective rounds next taken.restricted
        rw [failed] at round
        generalize same : (Except.error Fault.dualFailed, t') = result at round
        cases round with
        | missing c absent needed => cases same
        | @blocked other found blocked =>
            cases same
            obtain rfl := Option.some.inj (taken.found.symm.trans found)
            exact ⟨exit, row, taken.abandoned blocked⟩
        | @turned goal other entry found stored cheapest pivotal =>
            obtain rfl := Option.some.inj (taken.found.symm.trans found)
            exact ih ((exact.awaiting rest).pivoted pivotal) (taken.tracked cheapest exact) same.symm

theorem abandoned_of_repair (exact : t.Exact) (tracked : t.Tracked)
    (failed : (repair objective).run t = (.error .dualFailed, t')) :
    ∃ exit row, t'.Abandoned exit row := by
  rw [repair, Step.run_bind_get] at failed
  exact abandoned_of_repairWithin exact tracked failed

/-! ### Repairs that answer -/

/-- The same columns are known, the same assignments hold, and the same objectives have rows. -/
structure Recast (t t' : Tableau Rat) : Prop where
  exact : t'.Exact
  holds : ∀ σ, t'.Holds σ ↔ t.Holds σ
  scope_eq : t'.scope = t.scope
  objectives : ∀ c, c.isObjective = true → (t'.rows.get? c).isSome = (t.rows.get? c).isSome

theorem Recast.trans {t'' : Tableau Rat} (first : t.Recast t') (second : t'.Recast t'') :
    t.Recast t'' where
  exact := second.exact
  holds σ := (second.holds σ).trans (first.holds σ)
  scope_eq := second.scope_eq.trans first.scope_eq
  objectives c plain := (second.objectives c plain).trans (first.objectives c plain)

theorem Exact.recast_awaiting (exact : t.Exact) (rest : Sorted.Set Column) :
    t.Recast (t.awaiting rest) := ⟨exact.awaiting rest, fun _ => Iff.rfl, rfl, fun _ _ => rfl⟩

theorem Exact.recast_pivoted (exact : t.Exact) (pivotal : t.Pivotal entry exit row)
    (pivotable : entry.isPivotable = true) : t.Recast (t.pivoted entry exit row) where
  exact := exact.pivoted pivotal
  holds _ := exact.holds_pivoted pivotal
  scope_eq := exact.scope_pivoted pivotal
  objectives c plain := by
    have entryNe : c ≠ entry := by
      rintro rfl
      rw [Column.not_objective_of_restricted (Column.restricted_of_pivotable pivotable)] at plain
      cases plain
    have exitNe : c ≠ exit := by
      rintro rfl
      rw [pivotal.plain] at plain
      cases plain
    rw [Bool.eq_iff_iff, exact.basic_pivoted]
    simp [entryNe, exitNe]

/-- What is taken next was recorded, and so was what is left. -/
theorem nextViolated_cases (t : Tableau Rat) :
    (∃ rest, t.nextViolated = (none, t.awaiting rest) ∧ ∀ key ∈ rest, key ∈ t.infeasible) ∨
      ∃ exit rest, t.nextViolated = (some exit, t.awaiting rest) ∧ exit ∈ t.infeasible ∧
        ∀ key ∈ rest, key ∈ t.infeasible := by
  have dropped : ∀ key ∈ t.infeasible.toList.dropWhile t.isRepaired, key ∈ t.infeasible :=
    fun key member => Sorted.Set.mem_toList.1 ((List.dropWhile_suffix _).subset member)
  unfold nextViolated
  cases waits : t.infeasible.toList.dropWhile t.isRepaired with
  | nil => exact .inl ⟨∅, rfl, fun key member => absurd member (Sorted.Set.not_mem_empty key)⟩
  | cons exit rest =>
      rw [waits] at dropped
      refine .inr ⟨exit, .ofList rest, rfl, dropped exit List.mem_cons_self, fun key member => ?_⟩
      exact dropped key (List.mem_cons_of_mem _ (Sorted.Set.mem_ofList.1 member))

/-- What is taken next is restricted, where only restricted rows are recorded. -/
theorem Recorded.nextViolated_cases (recorded : t.Recorded) :
    (∃ rest, t.nextViolated = (none, t.awaiting rest)) ∨
      ∃ exit rest, t.nextViolated = (some exit, t.awaiting rest) ∧ exit.isRestricted = true ∧
        (t.awaiting rest).Recorded := by
  rcases t.nextViolated_cases with ⟨rest, next, -⟩ | ⟨exit, rest, next, waits, fewer⟩
  · exact .inl ⟨rest, next⟩
  · exact .inr ⟨exit, rest, next, recorded exit waits, fun key member =>
      recorded key (fewer key member)⟩

/-- Where only restricted rows are recorded, repairing keeps the assignments that hold, whatever else is
wrong with the tableau. -/
theorem recast_of_repairWithin {rounds : ℕ} (exact : t.Exact) (recorded : t.Recorded)
    (ran : (repairWithin objective rounds).run t = (.ok (), t')) : t.Recast t' := by
  induction rounds generalizing t with
  | zero => cases ran
  | succ rounds ih =>
      rcases recorded.nextViolated_cases with
        ⟨rest, next⟩ | ⟨exit, rest, next, restricted, recorded'⟩
      · rw [run_repairWithin_of_none next] at ran
        obtain ⟨-, rfl⟩ := Prod.mk.inj ran
        exact exact.recast_awaiting _
      · have round := exact.round objective rounds next restricted
        have exact' := exact.awaiting rest
        rw [ran] at round
        generalize same : ((Except.ok (), t') : Except (Fault Rat) Unit × Tableau Rat) = result
          at round
        cases round with
        | missing c absent needed => cases same
        | blocked found blocked => cases same
        | @turned goal row entry found stored cheapest pivotal =>
            have later := ih (exact'.pivoted pivotal)
              (exact'.recorded_pivoted entry exit row recorded') same.symm
            exact (exact.recast_awaiting _).trans
              ((exact'.recast_pivoted pivotal cheapest.pivotable).trans later)

theorem recast_of_repair (exact : t.Exact) (recorded : t.Recorded)
    (ran : (repair objective).run t = (.ok (), t')) : t.Recast t' := by
  rw [repair, Step.run_bind_get] at ran
  exact recast_of_repairWithin exact recorded ran

end SoftSimplex.Tableau
