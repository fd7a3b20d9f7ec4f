import SoftSimplex.Proofs.Simplex.PhaseOne

/-!
How a row is put in, step by step.

`insertion_insertRow` joins the ways in which a row may enter: on success the row has become an equation
of the tableau, and a shaped tableau refuses only rows that contradict it. A refused row may still be left
in the tableau, as the definition of an artificial column (`Remains`).
-/

namespace SoftSimplex.Simplex

open Tableau

variable {s s' : Simplex Rat} {t t' : Tableau Rat} {row : Row Rat} {a c : Column}

/-- What a refused row leaves in a tableau: nothing if it mentions dummies only, and itself as the
definition of a new column if the first phase refused it. -/
inductive Remains (s : Simplex Rat) (row : Row Rat) (s' : Simplex Rat) : Fault Rat → Prop where
  | nothing (same : s'.tableau = s.tableau) : Remains s row s' (.infeasibleRow row)
  | stranded {a : Column} (numbered : a.Numbered s.nextSerial s'.nextSerial)
      (stranded : s.tableau.Stranded row a s'.tableau) : Remains s row s' .infeasible

/-- What putting a row in may come to. -/
inductive Insertion (s : Simplex Rat) (row : Row Rat) :
    Except (Fault Rat) Unit × Simplex Rat → Prop where
  | inserted {s' : Simplex Rat} (keeps : s.Keeps s')
      (inserted : s.tableau.Inserted row s'.tableau) : Insertion s row (.ok (), s')
  | refused {fault : Fault Rat} {s' : Simplex Rat}
      (nonzero : s.tableau.Feasible → row.constant ≠ 0)
      (reason : s.tableau.Shaped → fault.isInfeasible = true ∧
        ∀ σ, s.tableau.Holds σ → Admissible σ → 0 < row.eval σ)
      (left : s.tableau.Shaped → s.Keeps s' ∧ s.Remains row s' fault) :
      Insertion s row (.error fault, s')

/-! ### The column that a row is solved for -/

/-- Which column a row is solved for. -/
inductive Chosen (e : Rat) (row : Row Rat) (candidates : List Column) :
    Except (Fault Rat) (Option Column) → Prop where
  | external {column : Column} (external : column.isExternal = true)
      (present : row.terms.contains column = true) : Chosen e row candidates (.ok (some column))
  | slack {column : Column} (internal : ∀ c, row.terms.contains c = true → c.isExternal = false)
      (member : column ∈ candidates) (slack : column.isSlack = true)
      (negative : row.coefficient column < 0) : Chosen e row candidates (.ok (some column))
  | dummy {column : Column} (dummies : ∀ c, row.terms.contains c = true → c.isDummy = true)
      (present : row.terms.contains column = true)
      (near : Scalar.nearZero e row.constant = true) : Chosen e row candidates (.ok (some column))
  | contradiction (dummies : ∀ c, row.terms.contains c = true → c.isDummy = true)
      (far : (∃ c, row.terms.contains c = true) → ¬Scalar.nearZero e row.constant = true) :
      Chosen e row candidates (.error (.infeasibleRow row))
  | phaseOne (internal : ∀ c, row.terms.contains c = true → c.isExternal = false) :
      Chosen e row candidates (.ok none)

theorem chosen_basicColumn? (e : Rat) (row : Row Rat) (candidates : List Column) :
    Chosen e row candidates (basicColumn? (some e) row candidates) := by
  unfold basicColumn? Row.basicColumn? Row.firstExternal?
  cases first : row.terms.keys.find? Column.isExternal with
  | some column =>
      have present := Sorted.Map.mem_keys_iff_contains.1 (List.mem_of_find?_eq_some first)
      have external : column.isExternal = true := List.find?_some first
      exact .external external present
  | none =>
      have internal : ∀ c, row.terms.contains c = true → c.isExternal = false := by
        intro c present
        have fails := List.find?_eq_none.1 first c (Sorted.Map.mem_keys_iff_contains.2 present)
        exact Bool.eq_false_iff.2 fails
      rw [Option.orElse_eq_orElse, Option.orElse_none]
      cases chosen : candidates.find? fun c => c.isSlack && decide (row.coefficient c < 0) with
      | some column =>
          have found := List.find?_some chosen
          rw [Bool.and_eq_true, decide_eq_true_eq] at found
          exact .slack internal (List.mem_of_find?_eq_some chosen) found.1 found.2
      | none =>
          dsimp only
          split
          · exact .phaseOne internal
          · next all =>
              have dummies : ∀ c, row.terms.contains c = true → c.isDummy = true := by
                intro c present
                by_contra other
                exact all (List.any_eq_true.2 ⟨c, Sorted.Map.mem_keys_iff_contains.2 present,
                  by simpa using other⟩)
              cases head : row.terms.keys.head? with
              | none =>
                  rw [List.head?_eq_none_iff] at head
                  refine .contradiction dummies fun ⟨marker, present⟩ => ?_
                  have member := Sorted.Map.mem_keys_iff_contains.2 present
                  rw [head] at member
                  cases member
              | some dummy =>
                  have inRow := Sorted.Map.mem_keys_iff_contains.1 (List.mem_of_mem_head? head)
                  dsimp only
                  split
                  · next near => exact .dummy dummies inRow near
                  · next far => exact .contradiction dummies fun _ => far

/-- The column that a row is solved for is one of its own. -/
theorem Chosen.contains {e : Rat} {candidates : List Column} {column : Column}
    (chosen : Chosen e row candidates (.ok (some column))) : row.terms.contains column = true := by
  cases chosen with
  | external _ present => exact present
  | slack _ _ _ negative => exact Row.contains_of_coefficient negative.ne
  | dummy _ present _ => exact present

/-! ### Entering at once -/

theorem run_insertSolved (wf : t.WellFormed) (parametric : t.Parametric row) {column : Column}
    (present : row.terms.contains column = true) :
    (insertSolved row column).run t = (.ok (), t.introduce column (row.solvedFor column)) := by
  obtain ⟨k, found⟩ := Sorted.Map.contains_iff.1 present
  have nonzero : k ≠ 0 := by
    rintro rfl
    exact parametric.nonzero column found
  have solve := Row.run_solveFor found nonzero
  have result : (Row.solveFor column row).result = .ok (1 / k) := (Prod.mk.inj solve).1
  have state : (Row.solveFor column row).state = row.solvedFor column := (Prod.mk.inj solve).2
  have tolerant : t.tolerance.isSome = true := by
    obtain ⟨e, tolerance, -⟩ := wf.tolerant
    rw [tolerance]
    rfl
  have substituted : (substitute column (row.solvedFor column)).run t =
      (.ok (), t.substituteOut column (row.solvedFor column)) := by
    rw [Step.run, substitute_eq Scalar.isNumber_rat tolerant]
  simp only [insertSolved, result, state, Step.run_bind_ofExcept_ok]
  rw [Step.run_bind_of_ok substituted, Step.run_modify]
  rfl

/-! ### Entering through an artificial column -/

/-- The column that replaces the artificial one is pivotable if it can be. -/
theorem replacement?_cases (row : Row Rat) :
    (replacement? row = none ∧ ∀ c, row.coefficient c = 0) ∨
      ∃ entry, replacement? row = some entry ∧ row.terms.contains entry = true ∧
        (entry.isPivotable = true ∨ ∀ c, row.terms.contains c = true → c.isPivotable = false) := by
  unfold replacement?
  cases first : row.terms.keys.find? Column.isPivotable with
  | some entry =>
      exact .inr ⟨entry, rfl,
        Sorted.Map.mem_keys_iff_contains.1 (List.mem_of_find?_eq_some first),
        .inl (List.find?_some first)⟩
  | none =>
      rw [Option.orElse_eq_orElse, Option.orElse_none]
      cases head : row.terms.keys.head? with
      | none =>
          refine .inl ⟨rfl, fun c => Row.coefficient_of_not_contains ?_⟩
          rw [← Bool.not_eq_true, ← Sorted.Map.mem_keys_iff_contains, List.head?_eq_none_iff.1 head]
          exact List.not_mem_nil
      | some entry =>
          refine .inr ⟨entry, rfl, Sorted.Map.mem_keys_iff_contains.1 (List.mem_of_mem_head? head),
            .inr fun c present => Bool.eq_false_iff.2 ?_⟩
          exact List.find?_eq_none.1 first c (Sorted.Map.mem_keys_iff_contains.2 present)

/-- What bringing the artificial column to zero may come to. -/
inductive Expulsion (s : Simplex Rat) (t : Tableau Rat) (row : Row Rat) (a : Column) :
    Except (Fault Rat) Unit × Simplex Rat → Prop where
  | brought {s' : Simplex Rat} (keeps : s.Keeps s')
      (brought : Brought (t.phaseOne row a) s'.tableau a)
      (retains : t.Steady → t.Retains (s'.tableau.withdrawn a))
      (still : t.Feasible → row.constant = 0 →
        (s'.tableau.withdrawn a).basicSolution = t.basicSolution) : Expulsion s t row a (.ok (), s')
  | stuck {fault : Fault Rat} {s' : Simplex Rat} (nonzero : t.Feasible → row.constant ≠ 0)
      (reason : t.Shaped → fault = .infeasible ∧
        ∀ σ, t.Holds σ → Admissible σ → 0 < row.eval σ)
      (left : t.Shaped → s.Keeps s' ∧ t.Stranded row a (s'.tableau.withdrawn a)) :
      Expulsion s t row a (.error fault, s')

section

variable (ready : t.Ready row a) (turns : (t.phaseOne row a).Turns t')
  (feasible : (t.phaseOne row a).Feasible → t'.Feasible)
  (lowers : (t.phaseOne row a).Feasible → (t.phaseOne row a).Lowers .artificialObjective t')
  (keeps : s.Keeps s')
include ready turns feasible lowers keeps

/-- The artificial column may have left the basis by itself. -/
private theorem expulsion_of_outside (same : s'.tableau = t') (outside : t'.rows.get? a = none) :
    Expulsion s t row a (.ok (), s') := by
  subst same
  have exact := turns.exact ready.phaseOne_exact
  refine .brought keeps (turns.brought ready.phaseOne_exact outside) (fun steady => ?_)
    fun start zero => ?_
  · have retains := ready.retains_turns turns feasible steady
    exact retains.trans (retains.toSteady.retains_withdrawn exact a)
  · exact ready.still_withdrawn exact (ready.still_turns turns feasible lowers start zero)

/-- The minimum may be positive. -/
private theorem expulsion_of_nonzero {goal : Row Rat} (same : s'.tableau = t')
    (found : t'.rows.get? .artificialObjective = some goal) (minimal : Minimal goal)
    (nonzero : goal.constant ≠ 0) : Expulsion s t row a (.error .infeasible, s') := by
  subst same
  obtain ⟨basic, positive⟩ := ready.pos_of_minimal turns found minimal nonzero
  refine .stuck (fun start zero => nonzero ?_) (fun shaped => ⟨rfl, positive shaped
    (feasible (ready.shaped_phaseOne shaped).feasible)⟩) fun _ =>
      ⟨keeps, ready.stranded turns feasible basic⟩
  rw [← basicSolution_of_basic found, ready.still_turns turns feasible lowers start zero,
    basicSolution_of_not_basic ready.idle]

variable {artificialRow : Row Rat} (inside : t'.rows.get? a = some artificialRow)
  (atZero : artificialRow.constant = 0)
include inside atZero

/-- An artificial row without terms is dropped. -/
private theorem expulsion_of_empty (empty : ∀ c, artificialRow.coefficient c = 0) :
    Expulsion s t row a (.ok (), s'.withTableau (t'.removeRow a)) := by
  have exact := (turns.exact ready.phaseOne_exact).removeRow a
  refine .brought (keeps.trans (keeps_withTableau _ _))
    (turns.brought_removeRow ready.phaseOne_exact ready.pivotable inside empty atZero)
    (fun steady => ?_) fun start zero => ?_
  · have retains := ready.retains_turns turns feasible steady
    have removed : t'.Retains (t'.removeRow a) := by
      refine ⟨retains.toSteady.of_rows fun key row' _ found => ?_, fun c dummy => ?_⟩
      · rw [get?_removeRow] at found
        split at found
        · cases found
        · exact found
      · refine basicSolution_removeRow ?_
        rintro rfl
        rw [Column.not_dummy_of_pivotable ready.pivotable] at dummy
        cases dummy
    exact (retains.trans removed).trans (removed.toSteady.retains_withdrawn exact a)
  · refine ready.still_withdrawn exact (funext fun c => ?_)
    by_cases own : c = a
    · subst own
      rw [tableau_withTableau, basicSolution_removeRow_self,
        basicSolution_of_not_basic (not_basic_of_not_mem_scope ready.new)]
    · rw [tableau_withTableau, basicSolution_removeRow own,
        ready.still_turns turns feasible lowers start zero]

/-- Otherwise the artificial column leaves the basis by a pivot that moves nothing. -/
private theorem expulsion_of_pivot {entry : Column}
    (present : artificialRow.terms.contains entry = true)
    (preferred : entry.isPivotable = true ∨
      ∀ c, artificialRow.terms.contains c = true → c.isPivotable = false) :
    Expulsion s t row a (.ok (), s'.withTableau (t'.pivoted entry a artificialRow)) := by
  have pivotal : t'.Pivotal entry a artificialRow :=
    ⟨inside, present, Column.not_objective_of_pivotable ready.pivotable⟩
  have exact := turns.exact ready.phaseOne_exact
  refine .brought (keeps.trans (keeps_withTableau _ _))
    (turns.brought_pivoted ready.phaseOne_exact ready.pivotable pivotal) (fun steady => ?_)
    fun start zero => ?_
  · have retains := ready.retains_turns turns feasible steady
    refine retains.trans (exact.retains_withdrawn_pivoted retains.toSteady pivotal ready.pivotable
      atZero (preferred.imp_right fun fixed c mentioned => ?_))
    exact fixed c ((mentions_iff_contains inside).1 mentioned)
  · refine ready.still_withdrawn (exact.pivoted pivotal) ?_
    rw [tableau_withTableau, exact.still_pivoted pivotal atZero,
      ready.still_turns turns feasible lowers start zero]

end

/-- A feasible tableau gets past the minimum without another fault. -/
private theorem expulsion_of_error {fault : Fault Rat} (ready : t.Ready row a)
    (failed : (minimize .artificialObjective).run (t.phaseOne row a) = (.error fault, t')) :
    Expulsion s t row a (.error fault, s') := by
  have impossible : ¬t.Feasible := by
    intro feasible
    obtain ⟨_, _, run, -⟩ := run_minimize_of_bounded ready.phaseOne_exact rfl
      (ready.feasible_phaseOne feasible) (by rw [ready.enterable.objective_found]; rfl) ready.bounded
    rw [failed] at run
    cases run
  exact .stuck (fun start => absurd start impossible) (fun shaped => absurd shaped.feasible impossible)
    fun shaped => absurd shaped.feasible impossible

theorem expulsion_expelArtificial (ready : t.Ready row a) (start : s.tableau = t.phaseOne row a) :
    Expulsion s t row a ((expelArtificial a).run s) := by
  have exact₁ := ready.phaseOne_exact
  have fixed : Column.artificialObjective.isPivotable = false := rfl
  have ending := ending_minimize exact₁ fixed
  rw [expelArtificial, Step.run_bind_modify]
  generalize result : (minimize .artificialObjective).run (t.phaseOne row a) = ended at ending
  rw [← start] at result
  cases ending with
  | @reached t' goal turns feasible lowers found minimal =>
      have keeps : s.Keeps (({ s with needsOptimize := true } : Simplex Rat).optimized t') :=
        ⟨rfl, rfl, rfl, le_rfl⟩
      rw [Step.run_bind_of_ok (run_optimize_of_reached (s := { s with needsOptimize := true }) rfl
        result), Step.run_bind_get]
      have tolerant : t'.tolerance = some 0 := (turns.exact exact₁).exact
      simp only [optimized, found, Step.run_bind_ofOption_some, tolerant, Option.isNone_some,
        Bool.false_eq_true, if_false]
      by_cases near : t'.nearZero goal.constant = true
      · simp only [near, if_true]
        rw [nearZero_eq tolerant] at near
        have zero := (Scalar.nearZero_zero _).1 near
        cases inside : t'.rows.get? a with
        | none => exact expulsion_of_outside ready turns feasible lowers keeps rfl inside
        | some artificialRow =>
            have atZero : artificialRow.constant = 0 := by
              rw [← basicSolution_of_basic inside, ← ready.enterable.objective_eq
                ((turns.holds exact₁ _).1 (turns.exact exact₁).holds_basicSolution),
                basicSolution_of_basic found, zero]
            rcases replacement?_cases artificialRow with
              ⟨none, empty⟩ | ⟨entry, some, present, preferred⟩
            · simp only [none]
              exact expulsion_of_empty ready turns feasible lowers keeps inside atZero empty
            · simp only [some]
              have pivotal : t'.Pivotal entry a artificialRow :=
                ⟨inside, present, Column.not_objective_of_pivotable ready.pivotable⟩
              rw [run_onTableau_of_ok ((turns.exact exact₁).run_pivot pivotal)]
              exact expulsion_of_pivot ready turns feasible lowers keeps inside atZero present preferred
      · simp only [near, Bool.false_eq_true, if_false, Step.run_failStep]
        refine expulsion_of_nonzero ready turns feasible lowers keeps rfl found minimal fun zero =>
          near ?_
        rw [nearZero_eq tolerant]
        exact (Scalar.nearZero_zero _).2 zero
  | noObjective absent =>
      rw [ready.enterable.objective_found] at absent
      cases absent
  | unbounded turns feasible found drives free =>
      rw [Step.run_bind_of_error (run_optimize_of_error (s := { s with needsOptimize := true }) rfl
        result)]
      exact expulsion_of_error ready (start ▸ result)
  | unfinished same descent =>
      rw [Step.run_bind_of_error (run_optimize_of_error (s := { s with needsOptimize := true }) rfl
        result)]
      exact expulsion_of_error ready (start ▸ result)

/-! ### Putting a row in -/

/-- A row can be put into a solver. -/
structure Acceptable (s : Simplex Rat) (row : Row Rat) : Prop where
  exact : s.tableau.Exact
  idle : s.tableau.rows.get? .artificialObjective = none
  insertable : s.tableau.Insertable row
  fresh : s.Fresh
  below : ∀ c, row.terms.contains c = true → c.Below s.nextSerial

theorem run_freshArtificial (s : Simplex Rat) : ∃ label, freshArtificial.run s =
    (.ok (.symbol ⟨.artificial, label, s.nextSerial⟩),
      { s with artificialCount := s.artificialCount + 1, nextSerial := s.nextSerial + 1 }) :=
  ⟨_, rfl⟩

theorem Acceptable.ready (acceptable : s.Acceptable row)
    (internal : ∀ c, row.terms.contains c = true → c.isExternal = false) (label : String) :
    s.tableau.Ready row (.symbol ⟨.artificial, label, s.nextSerial⟩) where
  exact := acceptable.exact
  insertable := acceptable.insertable
  internal := internal
  idle := acceptable.idle
  pivotable := rfl
  new := acceptable.fresh.not_mem_scope .artificial label
  absent := Bool.eq_false_iff.2 fun present =>
    absurd (acceptable.below _ present) (Nat.lt_irrefl _)

/-- The solver that was made ready for the first phase of a row. -/
def staged (s : Simplex Rat) (row : Row Rat) (a : Column) : Simplex Rat :=
  { s with
    artificialCount := s.artificialCount + 1
    nextSerial := s.nextSerial + 1
    tableau := s.tableau.phaseOne row a }

theorem keeps_staged (s : Simplex Rat) (row : Row Rat) (a : Column) : s.Keeps (s.staged row a) :=
  ⟨rfl, rfl, rfl, Nat.le_succ _⟩

/-- The first phase of a row expels a new artificial column, and then withdraws it in any case. -/
theorem run_insertByPhaseOne (s : Simplex Rat) (row : Row Rat) : ∃ label answer ended,
    (expelArtificial (.symbol ⟨.artificial, label, s.nextSerial⟩)).run
        (s.staged row (.symbol ⟨.artificial, label, s.nextSerial⟩)) = (answer, ended) ∧
      (insertByPhaseOne row).run s = (answer, ended.withTableau
        (ended.tableau.withdrawn (.symbol ⟨.artificial, label, s.nextSerial⟩))) := by
  obtain ⟨label, made⟩ := run_freshArtificial s
  generalize expelled : (expelArtificial (.symbol ⟨.artificial, label, s.nextSerial⟩)).run
    (s.staged row (.symbol ⟨.artificial, label, s.nextSerial⟩)) = ended
  obtain ⟨answer, ended⟩ := ended
  refine ⟨label, answer, ended, expelled, ?_⟩
  have closing : (do
      changeTableau fun t => (t.removeRow .artificialObjective).removeColumn
        (.symbol ⟨.artificial, label, s.nextSerial⟩)
      snapshot .afterPhaseOne : Step Rat (Simplex Rat) Unit).run ended =
        (.ok (), ended.withTableau (ended.tableau.withdrawn
          (.symbol ⟨.artificial, label, s.nextSerial⟩))) := by
    rw [Step.run_bind_of_ok (run_changeTableau _ _), run_snapshot]
    rfl
  rw [insertByPhaseOne, Step.run_bind_of_ok made, Step.run_bind_of_ok (run_changeTableau _ _),
    Step.run_bind_of_ok (run_snapshot _ _)]
  exact Step.run_thenAlways expelled closing

/-- Whatever the first phase comes to, its objective and its column are withdrawn. -/
theorem insertion_insertByPhaseOne (acceptable : s.Acceptable row)
    (internal : ∀ c, row.terms.contains c = true → c.isExternal = false) :
    Insertion s row ((insertByPhaseOne row).run s) := by
  obtain ⟨label, answer, ended, expelled, ran⟩ := run_insertByPhaseOne s row
  have ready := acceptable.ready internal label
  have artificial : (Column.symbol ⟨.artificial, label, s.nextSerial⟩).Numbered s.nextSerial
      (s.nextSerial + 1) := ⟨_, rfl, le_rfl, Nat.lt_succ_self _⟩
  generalize Column.symbol ⟨.artificial, label, s.nextSerial⟩ = a at expelled ran ready artificial
  have expulsion := expulsion_expelArtificial (s := s.staged row a) ready rfl
  rw [expelled] at expulsion
  rw [ran]
  cases expulsion with
  | brought later brought retains still =>
      exact .inserted (((keeps_staged s row a).trans later).trans (keeps_withTableau _ _))
        (ready.inserted brought retains still)
  | stuck nonzero reason left =>
      refine .refused nonzero (fun shaped => ?_) fun shaped => ?_
      · obtain ⟨rfl, positive⟩ := reason shaped
        exact ⟨rfl, positive⟩
      · obtain ⟨rfl, -⟩ := reason shaped
        obtain ⟨later, stranded⟩ := left shaped
        obtain ⟨symbol, rfl, first, last⟩ := artificial
        exact ⟨((keeps_staged s row _).trans later).trans (keeps_withTableau _ _),
          .stranded ⟨symbol, rfl, first, last.trans_le later.serial⟩ stranded⟩

/-- A row becomes an equation of the tableau, and a shaped tableau refuses it only if no admissible
assignment satisfies it. -/
theorem insertion_insertRow (acceptable : s.Acceptable row) {candidates : List Column}
    (unused : ∀ c ∈ candidates, s.tableau.Unused c) :
    Insertion s row ((insertRow row candidates).run s) := by
  have exact := acceptable.exact
  have insertable := acceptable.insertable
  have finished {result : Except (Fault Rat) Unit} {s₁ : Simplex Rat}
      (step : Step Rat (Simplex Rat) Unit) (ran : step.run s = (result, s₁))
      (insertion : Insertion s row (result, s₁)) :
      Insertion s row ((do
        step
        Step.modify fun s => { s with needsOptimize := true } :
          Step Rat (Simplex Rat) Unit).run s) := by
    cases insertion with
    | inserted keeps inserted =>
        rw [Step.run_bind_of_ok ran, Step.run_modify]
        exact .inserted ⟨keeps.goal, keeps.registered, keeps.nextMade, keeps.serial⟩ inserted
    | refused nonzero reason left =>
        rw [Step.run_bind_of_error ran]
        exact .refused nonzero reason left
  have solved {column : Column} (present : row.terms.contains column = true)
      (inserted : s.tableau.Inserted row (s.tableau.introduce column (row.solvedFor column))) :
      Insertion s row ((do
        onTableau (insertSolved row column)
        Step.modify fun s => { s with needsOptimize := true } :
          Step Rat (Simplex Rat) Unit).run s) :=
    finished _ (run_onTableau_of_ok (run_insertSolved exact.toWellFormed
      insertable.toParametric present))
      (.inserted (keeps_withTableau _ _) inserted)
  have entry := chosen_basicColumn? 0 row candidates
  rw [insertRow, Step.run_bind_get, exact.exact]
  generalize basicColumn? (some 0) row candidates = chosen at entry
  cases entry with
  | external external present =>
      rw [Step.run_bind_ofExcept_ok]
      exact solved present (insertable.introduce_external exact present external)
  | slack internal member slack negative =>
      rw [Step.run_bind_ofExcept_ok]
      exact solved (Row.contains_of_coefficient negative.ne)
        (insertable.introduce_slack exact internal slack negative (unused _ member))
  | dummy dummies present near =>
      rw [Step.run_bind_ofExcept_ok]
      exact solved present
        (insertable.introduce_dummy exact present dummies ((Scalar.nearZero_zero _).1 near))
  | contradiction dummies far =>
      have nonzero : row.constant ≠ 0 := fun zero =>
        far insertable.marked ((Scalar.nearZero_zero _).2 zero)
      rw [Step.run_bind_ofExcept_error]
      refine .refused (fun _ => nonzero) (fun _ => ⟨rfl, fun σ _ admissible => ?_⟩) fun _ =>
        ⟨⟨rfl, rfl, rfl, le_rfl⟩, .nothing rfl⟩
      have constant : row.eval σ = row.constant := by
        rw [← row.eval_zero]
        refine Row.eval_congr fun c mentioned => ?_
        exact admissible.zero c (dummies c (Row.contains_of_coefficient mentioned))
      rw [constant]
      exact insertable.nonneg.lt_of_ne nonzero.symm
  | phaseOne internal =>
      rw [Step.run_bind_ofExcept_ok]
      exact finished _ rfl (insertion_insertByPhaseOne acceptable internal)

/-- After a row was put in, a column may lower the objective. -/
theorem needsOptimize_insertRow {candidates : List Column}
    (answered : (insertRow row candidates).run s = (.ok (), s')) : s'.needsOptimize = true := by
  rw [insertRow, Step.run_bind_get] at answered
  obtain ⟨chosen, s₁, _, rest⟩ := Step.run_bind_eq_ok answered
  cases chosen with
  | none | some column =>
      obtain ⟨_, s₂, _, last⟩ := Step.run_bind_eq_ok rest
      exact (congrArg (·.2.needsOptimize) last).symm

end SoftSimplex.Simplex
