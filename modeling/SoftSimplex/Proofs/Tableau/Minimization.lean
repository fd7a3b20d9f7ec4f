import SoftSimplex.Proofs.Tableau.Choice
import SoftSimplex.Proofs.Tableau.Shape

/-!
The primal simplex method.

Each round makes a turn that lowers the objective or keeps the basic solution (`Descent`). No descent
from a feasible tableau comes back to a basis (`Descent.no_cycle`): the last fickle column would have to
be passed over where it leaves. So the method ends within `basisBound` rounds (`ending_minimize`), with
an optimal objective row or with a column that lowers the objective and that no row bounds.
-/

namespace SoftSimplex.Tableau

variable {t t' : Tableau Rat} {objective entry exit key c : Column} {goal row : Row Rat}

/-! ### Choosing the columns -/

/-- A column is the first pivotable one that lowers the objective. -/
structure Drives (goal : Row Rat) (entry : Column) : Prop where
  pivotable : entry.isPivotable = true
  negative : goal.coefficient entry < 0
  first : ∀ c, c.isPivotable = true → compare c entry = .lt → 0 ≤ goal.coefficient c

/-- No pivotable column lowers the objective. -/
def Minimal (goal : Row Rat) : Prop := ∀ c, c.isPivotable = true → 0 ≤ goal.coefficient c

/-- A row is the first of those that bound the growth of a column most. -/
structure Bounds (t : Tableau Rat) (entry exit : Column) (row : Row Rat) : Prop where
  found : t.rows.get? exit = some row
  pivotable : exit.isPivotable = true
  negative : row.coefficient entry < 0
  first : ∀ key other, t.rows.get? key = some other → key.isPivotable = true →
    other.coefficient entry < 0 →
      Precedes (exit, -row.constant / row.coefficient entry)
        (key, -other.constant / other.coefficient entry)

/-- No pivotable row bounds the growth of a column. -/
def Unbounded (t : Tableau Rat) (entry : Column) : Prop :=
  ∀ key row, t.rows.get? key = some row → key.isPivotable = true → 0 ≤ row.coefficient entry

/-- The entering column is found if there is one, which depends on the tolerance. -/
theorem entering?_cases {e : Rat} (tolerance : t.tolerance = some e) (nonneg : 0 ≤ e)
    (goal : Row Rat) :
    (t.entering? goal = .ok none ∧ ∀ c, c.isPivotable = true → -e ≤ goal.coefficient c) ∨
      ∃ entry, t.entering? goal = .ok (some entry) ∧ entry.isPivotable = true ∧
        goal.coefficient entry < -e ∧
        ∀ c, c.isPivotable = true → compare c entry = .lt → -e ≤ goal.coefficient c := by
  have answer : t.entering? goal = .ok (((goal.terms.toList.filter fun term =>
      term.1.isPivotable).find? fun term => t.isNegative term.2).map (·.1)) := by
    rw [entering?, tolerance]
    simp
  have negative (k : Rat) : t.isNegative k = true ↔ k < -e := isNegative_iff tolerance k
  have member : ∀ c, c.isPivotable = true → goal.coefficient c < -e →
      (c, goal.coefficient c) ∈ goal.terms.toList.filter fun term => term.1.isPivotable := by
    intro c pivotable below
    have nonzero : goal.coefficient c ≠ 0 := (below.trans_le (neg_nonpos.2 nonneg)).ne
    obtain ⟨k, found⟩ := Sorted.Map.contains_iff.1 (Row.contains_of_coefficient nonzero)
    rw [Row.coefficient_of_get? found]
    exact List.mem_filter.2 ⟨Sorted.Map.get?_eq_some_iff.1 found, pivotable⟩
  cases search : (goal.terms.toList.filter fun term => term.1.isPivotable).find? fun term =>
      t.isNegative term.2 with
  | none =>
      refine .inl ⟨by rw [answer, search]; rfl, fun c pivotable => ?_⟩
      by_contra below
      have inTerms := member c pivotable (not_le.1 below)
      exact List.find?_eq_none.1 search _ inTerms ((negative _).2 (not_le.1 below))
  | some term =>
      refine .inr ⟨term.1, by rw [answer, search]; rfl, ?_⟩
      obtain ⟨chosen, before, after, split, passed⟩ := List.find?_eq_some_iff_append.1 search
      have inTerms : term ∈ goal.terms.toList.filter fun term => term.1.isPivotable :=
        List.mem_of_find?_eq_some search
      obtain ⟨stored, pivotable⟩ := List.mem_filter.1 inTerms
      have coefficient : goal.coefficient term.1 = term.2 :=
        Row.coefficient_of_get? (Sorted.Map.get?_eq_some_iff.2 stored)
      refine ⟨pivotable, by rw [coefficient]; exact (negative _).1 chosen, fun c pivotable less => ?_⟩
      by_contra below
      have inTerms := member c pivotable (not_le.1 below)
      have ordered := goal.terms.increasing.filter fun term : Column × Rat => term.1.isPivotable
      rw [split] at inTerms ordered
      rcases List.mem_append.1 inTerms with inBefore | inAfter
      · have kept := passed _ inBefore
        simp only [Bool.not_eq_true', Bool.eq_false_iff, ne_eq, negative] at kept
        exact kept (not_le.1 below)
      · rcases List.mem_cons.1 inAfter with same | inAfter
        · rw [← same] at less
          exact Column.not_before_self c less
        · have above := (List.pairwise_cons.1 (List.pairwise_append.1 ordered).2.1).1 _ inAfter
          exact Column.not_before_of_before above less

theorem Exact.entering?_cases (exact : t.Exact) (goal : Row Rat) :
    (t.entering? goal = .ok none ∧ Minimal goal) ∨
      ∃ entry, t.entering? goal = .ok (some entry) ∧ Drives goal entry := by
  have cases := Tableau.entering?_cases exact.exact le_rfl goal
  rw [neg_zero] at cases
  rcases cases with ⟨entering, minimal⟩ | ⟨entry, entering, pivotable, negative, first⟩
  · exact .inl ⟨entering, minimal⟩
  · exact .inr ⟨entry, entering, pivotable, negative, first⟩

/-- The leaving column is found if some row bounds the entering one. -/
theorem WellFormed.leaving?_cases (wf : t.WellFormed) (entry : Column) :
    (t.leaving? entry = .ok none ∧ t.Unbounded entry) ∨
      ∃ exit row, t.leaving? entry = .ok (some (exit, -row.constant / row.coefficient entry)) ∧
        t.Bounds entry exit row := by
  let bounds := (t.namedRows entry Column.isPivotable).filterMap fun named =>
    (growthBound? entry named.2).map fun ratio => (named.1, ratio)
  have answer : t.leaving? entry = .ok (leastRatio? bounds) := by
    have kept : bounds.mapM (m := Except (Fault Rat))
        (fun bound => return (bound.1, ← Step.checked bound.2)) = .ok (bounds.map id) :=
      mapM_eq_ok fun _ _ => rfl
    rw [List.map_id] at kept
    rw [leaving?, rowsOf_eq wf.stored_of_named]
    exact congrArg (fun r => r >>= fun b => Except.ok (leastRatio? b)) kept
  have mem_bounds : ∀ key row, t.rows.get? key = some row → key.isPivotable = true →
      row.coefficient entry < 0 → (key, -row.constant / row.coefficient entry) ∈ bounds := by
    intro key row found pivotable negative
    refine List.mem_filterMap.2 ⟨(key, row), wf.mem_namedRows.2
      ⟨found, Row.contains_of_coefficient negative.ne, pivotable⟩, ?_⟩
    simp [growthBound?, negative]
  cases least : leastRatio? bounds with
  | none =>
      refine .inl ⟨by rw [answer, least], fun key row found pivotable => ?_⟩
      by_contra below
      have member := mem_bounds key row found pivotable (not_le.1 below)
      rw [leastRatio?_eq_none.1 least] at member
      cases member
  | some chosen =>
      have ordered : InOrder bounds := inOrder_filterMap (t.ordered_namedRows _ _) _
      obtain ⟨member, precedes⟩ := leastRatio?_spec ordered least
      obtain ⟨⟨exit, row⟩, named, bounded⟩ := List.mem_filterMap.1 member
      obtain ⟨found, -, pivotable⟩ := wf.mem_namedRows.1 named
      have negative : row.coefficient entry < 0 := by
        by_contra notBelow
        simp [growthBound?, notBelow] at bounded
      simp only [growthBound?, negative, if_true, Option.map_some, Option.some.injEq] at bounded
      subst bounded
      exact .inr ⟨exit, row, by rw [answer, least], found, pivotable, negative,
        fun key other found' pivotable' negative' =>
          precedes _ (mem_bounds key other found' pivotable' negative')⟩

/-! ### One turn -/

theorem Bounds.pivotal (bounds : t.Bounds entry exit row) : t.Pivotal entry exit row :=
  ⟨bounds.found, Row.contains_of_coefficient bounds.negative.ne,
    Column.not_objective_of_pivotable bounds.pivotable⟩

theorem Bounds.ratio_nonneg (bounds : t.Bounds entry exit row) (feasible : t.Feasible) :
    0 ≤ -row.constant / row.coefficient entry := by
  have constant := feasible.constant bounds.found bounds.pivotable
  rw [neg_div, ← div_neg]
  exact div_nonneg constant (neg_nonneg.2 bounds.negative.le)

/-- The least ratio keeps the rows from becoming negative. -/
theorem Bounds.feasible (bounds : t.Bounds entry exit row) (exact : t.Exact)
    (feasible : t.Feasible) : (t.pivoted entry exit row).Feasible := by
  intro c pivotable
  rw [exact.basicSolution_pivoted bounds.pivotal]
  have ratio := bounds.ratio_nonneg feasible
  cases found : t.rows.get? c with
  | none =>
      by_cases isEntry : c = entry
      · rw [isEntry, ray_self (exact.entry_not_basic bounds.pivotal)]
        exact ratio
      · rw [ray_of_not_basic found isEntry]
  | some other =>
      rw [ray_of_basic found]
      have constant := feasible.constant found pivotable
      by_cases negative : other.coefficient entry < 0
      · have least := (bounds.first c other found pivotable negative).1
        have scaled := mul_le_mul_of_nonpos_left least negative.le
        have cancel : other.coefficient entry * (-other.constant / other.coefficient entry) =
            -other.constant := by
          have nonzero := negative.ne
          field_simp
        dsimp only at scaled
        linarith
      · exact add_nonneg constant (mul_nonneg (not_lt.1 negative) ratio)

/-- An objective was not raised, and nothing moved unless it was lowered. -/
structure Lowers (t : Tableau Rat) (objective : Column) (t' : Tableau Rat) : Prop where
  le : t'.basicSolution objective ≤ t.basicSolution objective
  still : t'.basicSolution objective = t.basicSolution objective → t'.basicSolution = t.basicSolution

theorem Lowers.refl (t : Tableau Rat) (objective : Column) : t.Lowers objective t :=
  ⟨le_rfl, fun _ => rfl⟩

theorem Lowers.trans {t'' : Tableau Rat} (first : t.Lowers objective t')
    (second : t'.Lowers objective t'') : t.Lowers objective t'' where
  le := second.le.trans first.le
  still same := by
    have middle : t'.basicSolution objective = t.basicSolution objective :=
      le_antisymm first.le (same ▸ second.le)
    rw [second.still (same.trans middle.symm), first.still middle]

/-- Where the objective was least, nothing moved. -/
theorem Lowers.basicSolution_eq (lowers : t.Lowers objective t')
    (least : t.basicSolution objective ≤ t'.basicSolution objective) :
    t'.basicSolution = t.basicSolution := lowers.still (le_antisymm lowers.le least)

/-- A turn lowers the objective, unless the basic solution stays. -/
theorem Bounds.lowers (bounds : t.Bounds entry exit row) (exact : t.Exact) (feasible : t.Feasible)
    (found : t.rows.get? objective = some goal) (drives : Drives goal entry) :
    t.Lowers objective (t.pivoted entry exit row) := by
  have ratio := bounds.ratio_nonneg feasible
  have lower := mul_nonpos_of_nonpos_of_nonneg drives.negative.le ratio
  have value : (t.pivoted entry exit row).basicSolution objective =
      goal.constant + goal.coefficient entry * (-row.constant / row.coefficient entry) := by
    rw [exact.basicSolution_pivoted bounds.pivotal, ray_of_basic found]
  refine ⟨by rw [value, basicSolution_of_basic found]; linarith, fun same => ?_⟩
  rw [value, basicSolution_of_basic found] at same
  rw [exact.basicSolution_pivoted bounds.pivotal]
  have zero : -row.constant / row.coefficient entry = 0 := by
    have product : goal.coefficient entry * (-row.constant / row.coefficient entry) = 0 := by
      linarith
    exact (mul_eq_zero.1 product).resolve_left drives.negative.ne
  rw [zero, ray_zero]

/-! ### Descents -/

/-- A path of turns that the primal method makes. -/
structure Descent (objective : Column) (f : ℕ → Tableau Rat) (entry exit : ℕ → Column) (n : ℕ) :
    Prop extends Path f entry exit n where
  choice : ∀ m < n, ∃ goal row, (f m).rows.get? objective = some goal ∧
    Drives goal (entry m) ∧ (f m).Bounds (entry m) (exit m) row ∧
    f (m + 1) = (f m).pivoted (entry m) (exit m) row

namespace Descent

variable {f : ℕ → Tableau Rat} {entry exit : ℕ → Column} {n m : ℕ}
  (descent : Descent objective f entry exit n)
include descent

theorem feasible (start : (f 0).Feasible) (bound : m ≤ n) : (f m).Feasible := by
  induction m with
  | zero => exact start
  | succ m ih =>
      obtain ⟨goal, row, -, -, bounds, next⟩ := descent.choice m bound
      rw [next]
      exact bounds.feasible (descent.exact (Nat.le_of_succ_le bound)) (ih (Nat.le_of_succ_le bound))

theorem lowers (start : (f 0).Feasible) (bound : m < n) :
    (f m).Lowers objective (f (m + 1)) := by
  obtain ⟨goal, row, found, drives, bounds, next⟩ := descent.choice m bound
  rw [next]
  exact bounds.lowers (descent.exact bound.le) (descent.feasible start bound.le) found drives

theorem lowers_from (start : (f 0).Feasible) (bound : m ≤ n) :
    (f m).Lowers objective (f n) := by
  induction n, bound using Nat.le_induction with
  | base => exact .refl _ _
  | succ n le ih =>
      have shorter : Descent objective f entry exit n :=
        { start := descent.start
          turn := fun m small => descent.turn m (small.trans (Nat.lt_succ_self n))
          choice := fun m small => descent.choice m (small.trans (Nat.lt_succ_self n)) }
      exact (ih shorter).trans (descent.lowers start (Nat.lt_succ_self n))

/-- On a cycle the basic solution stays. -/
theorem basicSolution_eq (start : (f 0).Feasible) (cycle : Cycle f entry exit n) (bound : m ≤ n) :
    (f m).basicSolution = (f 0).basicSolution := by
  have closed : (f n).basicSolution = (f 0).basicSolution :=
    (descent.exact le_rfl).toWellFormed.extend_eq descent.start.toWellFormed
      (fun c => (cycle.closed c).symm) (descent.holds le_rfl) _
  induction m with
  | zero => rfl
  | succ m ih =>
      have before := ih (Nat.le_of_succ_le bound)
      have least := (descent.lowers_from start bound).le
      rw [closed, ← before] at least
      rw [(descent.lowers start bound).basicSolution_eq least, before]

/-- No descent is a cycle. At the last fickle column `q` two places of the cycle are compared: where
`q` enters, and where `q` leaves for a column `p`. Along the ray of `p` the objective falls, so its
row at the first place has a term that falls, which is of a fickle column that comes before `q`; at
the second place that column bounds `p` as well as `q` does. -/
theorem no_cycle (start : (f 0).Feasible) (cycle : Cycle f entry exit n) : False := by
  obtain ⟨m, boundM, last⟩ := cycle.exists_last
  obtain ⟨k, boundK, leaves⟩ := cycle.exists_exit boundM
  obtain ⟨goal, -, foundGoal, drives, -, -⟩ := descent.choice m boundM
  obtain ⟨goal', row, foundGoal', drives', bounds, -⟩ := descent.choice k boundK
  have exactM := descent.exact boundM.le
  have exactK := descent.exact boundK.le
  have solution : (f m).basicSolution = (f k).basicSolution :=
    (descent.basicSolution_eq start cycle boundM.le).trans
      (descent.basicSolution_eq start cycle boundK.le).symm
  have holds : (f m).Holds ((f k).ray (entry k) 1) := by
    rw [descent.holds boundM.le, ← descent.holds boundK.le]
    exact exactK.holds_ray _ _
  have entryOutside : (f k).rows.get? (entry k) = none := exactK.entry_not_basic bounds.pivotal
  -- At the ray every term of the objective row would have to be nonnegative.
  have terms : ∀ c, 0 ≤ goal.coefficient c * (f k).ray (entry k) 1 c := by
    intro c
    by_cases zero : goal.coefficient c = 0
    · rw [zero, zero_mul]
    have outside : (f m).rows.get? c = none :=
      exactM.not_basic (mentions_of_coefficient foundGoal zero)
    cases found : (f k).rows.get? c with
    | none =>
        by_cases isEntry : c = entry k
        · subst isEntry
          rw [ray_self entryOutside, mul_one]
          refine drives.first _ drives'.pivotable ((last k boundK).resolve_left fun same => ?_)
          rw [← leaves] at same
          exact exactK.entry_ne_exit bounds.pivotal same
        · rw [ray_of_not_basic found isEntry, mul_zero]
    | some other =>
        have constant : other.constant = 0 := by
          rw [← basicSolution_of_basic found, ← solution, basicSolution_of_not_basic outside]
        rw [ray_of_basic found, constant, zero_add, mul_one]
        obtain ⟨j, boundJ, fickle⟩ :=
          cycle.fickle_of_change boundK.le boundM.le (by rw [found]; rfl) outside
        have pivotable : c.isPivotable = true := by
          obtain ⟨_, _, _, drivesJ, _, _⟩ := descent.choice j boundJ
          rw [← fickle]
          exact drivesJ.pivotable
        rcases last j boundJ with same | less
        · rw [fickle] at same
          rw [same, ← leaves, bounds.found] at found
          cases found
          rw [same]
          exact mul_nonneg_of_nonpos_of_nonpos drives.negative.le bounds.negative.le
        · rw [fickle] at less
          refine mul_nonneg (drives.first c pivotable less) ?_
          by_contra below
          have zeroRow : row.constant = 0 := by
            rw [← basicSolution_of_basic bounds.found, ← solution, leaves]
            refine basicSolution_of_not_basic ?_
            obtain ⟨_, _, _, _, boundsM, _⟩ := descent.choice m boundM
            exact exactM.entry_not_basic boundsM.pivotal
          have first := (bounds.first c other found pivotable (not_le.1 below)).2
            (by simp [constant, zeroRow])
          dsimp only at first
          rw [leaves] at first
          rcases first with same | after
          · rw [same] at less
            exact Column.not_before_self _ less
          · exact Column.not_before_of_before after less
  have value := holds objective goal foundGoal
  rw [ray_of_basic foundGoal', mul_one, ← basicSolution_of_basic foundGoal', ← solution,
    basicSolution_of_basic foundGoal] at value
  have least := Row.constant_le_eval terms
  have falls := drives'.negative
  linarith

/-- A descent is shorter than the number of bases. -/
theorem lt_basisBound (start : (f 0).Feasible) : n < (f 0).basisBound := by
  by_contra long
  obtain ⟨i, m, bound, cycle⟩ := descent.exists_cycle (not_lt.1 long)
  have part : Descent objective (fun k => f (i + k)) (fun k => entry (i + k))
      (fun k => exit (i + k)) m :=
    { toPath := cycle.toPath
      choice := fun k small => descent.choice (i + k) (by omega) }
  exact part.no_cycle (descent.feasible start (by omega)) cycle

end Descent

/-! ### How the method ends -/

theorem snapshot_eq (milestone : Milestone) (t : Tableau Rat) :
    snapshot milestone t = ⟨.ok (), t, [.snapshot milestone t]⟩ := by
  simp only [snapshot, bind, Step.bind, Step.get, isWritable_rat, Bool.or_true, Step.ensure_true,
    Step.pure, Step.report, List.nil_append]

@[simp] theorem run_snapshot (milestone : Milestone) (t : Tableau Rat) :
    (snapshot milestone).run t = (.ok (), t) := by
  rw [Step.run, snapshot_eq]

/-- What a run of the primal method may come to. -/
inductive Ending (objective : Column) (rounds : ℕ) (t : Tableau Rat) :
    Except (Fault Rat) Optimum × Tableau Rat → Prop where
  | reached {t' : Tableau Rat} {goal : Row Rat} (turns : t.Turns t')
      (feasible : t.Feasible → t'.Feasible) (lowers : t.Feasible → t.Lowers objective t')
      (found : t'.rows.get? objective = some goal) (minimal : Minimal goal) :
      Ending objective rounds t (.ok .reached, t')
  | noObjective (absent : t.rows.get? objective = none) :
      Ending objective rounds t (.ok .noObjective, t)
  | unbounded {t' : Tableau Rat} {goal : Row Rat} {entry : Column} (turns : t.Turns t')
      (feasible : t.Feasible → t'.Feasible) (found : t'.rows.get? objective = some goal)
      (drives : Drives goal entry) (free : t'.Unbounded entry) :
      Ending objective rounds t (.error .unbounded, t')
  | unfinished {f : ℕ → Tableau Rat} {entry exit : ℕ → Column} (start : f 0 = t)
      (descent : Descent objective f entry exit rounds) :
      Ending objective rounds t (.error .unfinished, f rounds)

/-- A turn before a descent makes it longer by one. -/
private theorem Descent.cons {f : ℕ → Tableau Rat} {entries exits : ℕ → Column} {n : ℕ}
    (descent : Descent objective f entries exits n) (exact : t.Exact)
    (found : t.rows.get? objective = some goal) (drives : Drives goal entry)
    (bounds : t.Bounds entry exit row) (joined : f 0 = t.pivoted entry exit row) :
    Descent objective (preceded t f) (preceded entry entries) (preceded exit exits) (n + 1) where
  toPath := descent.toPath.cons exact bounds.pivotal
    (show f 0 = (t.awaiting t.infeasible).pivoted entry exit row from joined)
  choice m bound := by
    cases m with
    | zero => exact ⟨goal, row, found, drives, bounds, joined⟩
    | succ m => exact descent.choice m (Nat.lt_of_succ_lt_succ bound)

/-- A turn before a run ends as the run does. -/
private theorem Ending.cons {rounds : ℕ} {ending : Except (Fault Rat) Optimum × Tableau Rat}
    (exact : t.Exact) (fixed : objective.isPivotable = false)
    (found : t.rows.get? objective = some goal) (drives : Drives goal entry)
    (bounds : t.Bounds entry exit row)
    (rest : Ending objective rounds (t.pivoted entry exit row) ending) :
    Ending objective (rounds + 1) t ending := by
  have turn : t.Turn (t.pivoted entry exit row) :=
    ⟨entry, exit, row, t.infeasible, bounds.pivotal, drives.pivotable, bounds.pivotable, id, rfl⟩
  have feasible := bounds.feasible exact
  cases rest with
  | reached turns keeps lowers stored minimal =>
      exact .reached (.head turn turns) (fun start => keeps (feasible start)) (fun start =>
        (bounds.lowers exact start found drives).trans (lowers (feasible start))) stored minimal
  | noObjective absent =>
      have kept := Turns.basic_eq (.single turn) exact fixed
      rw [absent, found] at kept
      cases kept
  | unbounded turns keeps found drives free =>
      exact .unbounded (.head turn turns) (fun start => keeps (feasible start)) found drives free
  | unfinished start descent =>
      exact .unfinished (f := preceded t _) rfl (descent.cons exact found drives bounds start)

theorem ending_minimizeWithin (exact : t.Exact) (fixed : objective.isPivotable = false)
    (rounds : ℕ) : Ending objective rounds t ((minimizeWithin objective rounds).run t) := by
  induction rounds generalizing t with
  | zero =>
      have resting : Descent objective (fun _ => t) (fun _ => objective) (fun _ => objective) 0 :=
        ⟨.of_exact exact _ _, fun m small => absurd small (Nat.not_lt_zero m)⟩
      exact .unfinished (f := fun _ => t) rfl resting
  | succ rounds ih =>
      rw [minimizeWithin, Step.run_bind_get]
      cases found : t.rows.get? objective with
      | none => exact .noObjective found
      | some goal =>
          rcases exact.entering?_cases goal with ⟨entering, minimal⟩ | ⟨entry, entering, drives⟩
          · simp only [entering, Step.run_bind_ofExcept_ok, Step.run_return]
            exact .reached .refl id (fun _ => .refl t objective) found minimal
          · simp only [entering, Step.run_bind_ofExcept_ok]
            rcases exact.leaving?_cases entry with ⟨leaving, free⟩ | ⟨exit, row, leaving, bounds⟩
            · simp only [leaving, Step.run_bind_ofExcept_ok]
              rw [Step.run_bind_of_ok (run_snapshot _ _), Step.run_failStep]
              exact .unbounded .refl id found drives free
            · simp only [leaving, Step.run_bind_ofExcept_ok, Step.run_bind_report]
              rw [Step.run_bind_of_ok (exact.run_pivot bounds.pivotal)]
              exact .cons exact fixed found drives bounds (ih (exact.pivoted bounds.pivotal))

theorem ending_minimize (exact : t.Exact) (fixed : objective.isPivotable = false) :
    Ending objective t.basisBound t ((minimize objective).run t) := by
  rw [minimize, Step.run_bind_get]
  exact ending_minimizeWithin exact fixed _

/-- From a feasible tableau the method comes to an end, and it fails only if it finds a column that
lowers the objective without bound. -/
theorem ending_minimize_of_feasible (exact : t.Exact) (fixed : objective.isPivotable = false)
    (feasible : t.Feasible) (stored : (t.rows.get? objective).isSome) :
    ∃ t' goal, t.Turns t' ∧ t'.Feasible ∧ t'.rows.get? objective = some goal ∧
      ((Minimal goal ∧ t.Lowers objective t' ∧ (minimize objective).run t = (.ok .reached, t')) ∨
        ∃ entry, Drives goal entry ∧ t'.Unbounded entry ∧
          (minimize objective).run t = (.error .unbounded, t')) := by
  generalize same : (minimize objective).run t = ended
  have ending := ending_minimize exact fixed
  rw [same] at ending
  cases ending with
  | reached turns keeps lowers found minimal =>
      exact ⟨_, _, turns, keeps feasible, found, .inl ⟨minimal, lowers feasible, rfl⟩⟩
  | noObjective absent =>
      rw [absent] at stored
      cases stored
  | unbounded turns keeps found drives free =>
      exact ⟨_, _, turns, keeps feasible, found, .inr ⟨_, drives, free, rfl⟩⟩
  | unfinished start descent =>
      subst start
      exact absurd (descent.lt_basisBound feasible) (lt_irrefl _)

/-! ### Objectives without a least value -/

/-- Where no row bounds a column that lowers the objective, the objective has no least value. -/
theorem Unbounded.exists_below (free : t.Unbounded entry) (exact : t.Exact) (feasible : t.Feasible)
    (found : t.rows.get? objective = some goal) (drives : Drives goal entry) (least : Rat) :
    ∃ x, (∀ c, c.isPivotable = true → 0 ≤ t.ray entry x c) ∧ t.ray entry x objective < least := by
  have outside : t.rows.get? entry = none :=
    exact.not_basic (mentions_of_coefficient found drives.negative.ne)
  have negative := drives.negative
  obtain ⟨x, positive, enough⟩ :
      ∃ x : Rat, 0 ≤ x ∧ goal.constant + goal.coefficient entry * x < least := by
    refine ⟨(|goal.constant - least| + 1) / -goal.coefficient entry, ?_, ?_⟩
    · exact div_nonneg (add_nonneg (abs_nonneg _) zero_le_one) (neg_nonneg.2 negative.le)
    · have cancel : goal.coefficient entry *
          ((|goal.constant - least| + 1) / -goal.coefficient entry) =
            -(|goal.constant - least| + 1) := by
        have nonzero := negative.ne
        field_simp
      rw [cancel]
      have upper := le_abs_self (goal.constant - least)
      linarith
  refine ⟨x, fun c pivotable => ?_, by rwa [ray_of_basic found]⟩
  cases basic : t.rows.get? c with
  | none =>
      by_cases isEntry : c = entry
      · rw [isEntry, ray_self outside]
        exact positive
      · rw [ray_of_not_basic basic isEntry]
  | some row =>
      rw [ray_of_basic basic]
      exact add_nonneg (feasible.constant basic pivotable)
        (mul_nonneg (free c row basic pivotable) positive)

/-- An objective with a lower bound on nonnegative assignments is brought to its least value. -/
theorem run_minimize_of_bounded (exact : t.Exact) (fixed : objective.isPivotable = false)
    (feasible : t.Feasible) (stored : (t.rows.get? objective).isSome)
    (bounded : ∃ least, ∀ σ, t.Holds σ → (∀ c, c.isPivotable = true → 0 ≤ σ c) →
      least ≤ σ objective) :
    ∃ t' goal, (minimize objective).run t = (.ok .reached, t') ∧ t.Turns t' ∧ t'.Feasible ∧
      t.Lowers objective t' ∧ t'.rows.get? objective = some goal ∧ Minimal goal := by
  obtain ⟨t', goal, turns, feasible', found, ⟨minimal, lowers, run⟩ | ⟨entry, drives, free, -⟩⟩ :=
    ending_minimize_of_feasible exact fixed feasible stored
  · exact ⟨t', goal, run, turns, feasible', lowers, found, minimal⟩
  · obtain ⟨least, bound⟩ := bounded
    have exact' := turns.exact exact
    obtain ⟨x, nonnegative, below⟩ := free.exists_below exact' feasible' found drives least
    have holds := (turns.holds exact _).1 (exact'.holds_ray entry x)
    exact absurd (bound _ holds nonnegative) (not_le.2 below)

end SoftSimplex.Tableau
