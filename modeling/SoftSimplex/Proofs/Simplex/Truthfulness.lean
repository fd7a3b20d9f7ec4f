import SoftSimplex.Proofs.Simplex.Consistency
import SoftSimplex.Proofs.Tableau.Constants

/-!
Solvers that know whether they are optimal.

A solver remembers that nothing lowers its objective any more, and does not optimise again then. What it
remembers is right (`Truthful`) after every change that was answered, and after one that failed, if it was
right before; only a first phase that comes to nothing leaves it wrong, because its own objective was
minimised and the other one was disturbed (`Tells`).
-/

namespace SoftSimplex

namespace Tableau

variable {t t' : Tableau Rat} {errors : List Column} {weight : Rat} {key column : Column}

/-! ### Objectives that stay optimal -/

theorem Alike.optimized (alike : t.Alike t') (optimized : t.Optimized) : t'.Optimized := fun _ found =>
  alike.minimal optimized found

/-- The dual method lets the column enter that costs least, so that the objective row stays optimal. -/
theorem Exact.optimized_repairWithin (exact : t.Exact) (recorded : t.Recorded)
    (optimized : t.Optimized) (rounds : ℕ) :
    ((repairWithin .objective rounds).run t).2.Optimized := by
  induction rounds generalizing t with
  | zero => exact optimized
  | succ rounds ih =>
      rcases recorded.nextViolated_cases with
        ⟨rest, next⟩ | ⟨exit, rest, next, restricted, recorded'⟩
      · rw [run_repairWithin_of_none next]
        exact optimized
      · have round := exact.round .objective rounds next restricted
        have exact' := exact.awaiting rest
        generalize (repairWithin .objective (rounds + 1)).run t = ended at round
        cases round with
        | missing c absent needed => exact optimized
        | blocked found blocked => exact optimized
        | @turned goal row entry found stored cheapest pivotal =>
            refine ih (exact'.pivoted pivotal) (exact'.recorded_pivoted entry exit row recorded') ?_
            obtain ⟨goal', found', coefficients⟩ := exact'.coefficient_goal_pivoted pivotal stored rfl
            intro goal'' found''
            obtain rfl := Option.some.inj (found'.symm.trans found'')
            exact cheapest.minimal (optimized goal stored) coefficients

theorem Exact.optimized_repair (exact : t.Exact) (recorded : t.Recorded) (optimized : t.Optimized) :
    ((repair .objective).run t).2.Optimized := by
  rw [repair, Step.run_bind_get]
  exact exact.optimized_repairWithin recorded optimized _

/-- New columns that cost nothing less than zero do not lower the objective. -/
theorem Exact.optimized_penalized (exact : t.Exact) (stored : (t.rows.get? .objective).isSome)
    (plain : ∀ c ∈ errors, c.isObjective = false) (outside : ∀ c ∈ errors, t.rows.get? c = none)
    (nonneg : 0 ≤ weight) (optimized : t.Optimized) : (t.penalized weight errors).Optimized := by
  induction errors generalizing t with
  | nil => exact optimized
  | cons error rest ih =>
      obtain ⟨goal, found⟩ := Option.isSome_iff_exists.1 stored
      have own := plain error List.mem_cons_self
      have apart := exact.apart_addToObjective found own weight
      refine ih (exact.addToObjective found own weight) apart.stored
        (fun c member => plain c (List.mem_cons_of_mem _ member)) (fun c member => ?_)
        fun goal' found' c pivotable => ?_
      · have other : c ≠ .objective := by
          rintro rfl
          cases plain _ (List.mem_cons_of_mem _ member)
        rw [apart.others c other]
        exact outside c (List.mem_cons_of_mem _ member)
      · rw [exact.coefficient_addToObjective found exact.exact (outside error List.mem_cons_self) own
          weight found' c]
        refine add_nonneg (optimized goal found c pivotable) ?_
        split
        · exact nonneg
        · exact le_rfl

end Tableau

namespace Simplex

open Tableau

variable {s s' : Simplex Rat} {row : Row Rat} {a : Column} {c : Constraint Rat} {fault : Fault Rat}
  {α : Type}

/-! ### What a solver remembers -/

/-- If a solver takes its objective for optimal, then nothing lowers it. -/
def Truthful (s : Simplex Rat) : Prop := s.needsOptimize = false → s.tableau.Optimized

/-- A solver that is to optimise takes nothing for optimal. -/
theorem truthful_of_needed (needed : s.needsOptimize = true) : s.Truthful := fun done =>
  absurd (needed.symm.trans done) Bool.true_eq_false_eq_False

/-- What a solver remembers stays right. -/
def Upholds (s s' : Simplex Rat) : Prop := s.Truthful → s'.Truthful

instance : IsPreorder (Simplex Rat) Upholds where
  refl _ := id
  trans _ _ _ first second := second ∘ first

/-- What the end of a change says of what the solver remembers: it is right after an answer, and after a
failure if it was right before, unless a first phase came to nothing, which makes the solver take its
objective for optimal. -/
structure Tells (s : Simplex Rat) (ended : Except (Fault Rat) α × Simplex Rat) : Prop where
  answered : ended.1.isOk = true → ended.2.Truthful
  failed : ∀ fault, ended.1 = .error fault → fault ≠ .infeasible → s.Truthful → ended.2.Truthful
  exhausted : ended.1 = .error .infeasible → ended.2.needsOptimize = false

theorem Tells.of_same (other : fault ≠ .infeasible) :
    s.Tells ((.error fault, s) : Except (Fault Rat) α × Simplex Rat) where
  answered same := absurd same Bool.false_ne_true
  failed _ _ _ := id
  exhausted same := by
    cases same
    exact absurd rfl other

theorem Tells.of_error {β : Type}
    (tells : s.Tells ((.error fault, s') : Except (Fault Rat) α × Simplex Rat)) :
    s.Tells ((.error fault, s') : Except (Fault Rat) β × Simplex Rat) where
  answered same := absurd same Bool.false_ne_true
  failed reason same := by
    cases same
    exact tells.failed fault rfl
  exhausted same := by
    cases same
    exact tells.exhausted rfl

theorem Tells.mono {ended : Except (Fault Rat) α × Simplex Rat} (tells : s'.Tells ended)
    (truthful : s.Truthful → s'.Truthful) : s.Tells ended where
  answered := tells.answered
  failed fault failed other start := tells.failed fault failed other (truthful start)
  exhausted := tells.exhausted

/-- Optimising comes to an optimum, or leaves the solver with optimising to do. -/
theorem truthful_optimize (exact : s.tableau.Exact) (truthful : s.Truthful) :
    (optimize.run s).2.Truthful ∧ (optimize.run s).1 ≠ .error .infeasible := by
  cases needed : s.needsOptimize with
  | false =>
      rw [run_optimize_of_not_needed needed]
      exact ⟨truthful, by simp⟩
  | true =>
      have ending : Ending .objective _ _ ((minimize .objective).run s.tableau) :=
        ending_minimize exact rfl
      generalize result : (minimize .objective).run s.tableau = ended at ending
      cases ending with
      | reached turns feasible _ found minimal =>
          rw [run_optimize_of_reached needed result]
          refine ⟨fun _ goal found' => ?_, by simp⟩
          exact Option.some.inj (found.symm.trans found') ▸ minimal
      | noObjective absent =>
          rw [optimize, Step.run_bind_get]
          simp only [needed, if_true]
          rw [Step.run_bind_of_ok (run_onTableau_of_ok result)]
          exact ⟨truthful_of_needed needed, by simp⟩
      | unbounded turns feasible found drives free =>
          rw [run_optimize_of_error needed result]
          exact ⟨truthful_of_needed needed, by simp⟩
      | unfinished same descent =>
          rw [run_optimize_of_error needed result]
          exact ⟨truthful_of_needed needed, by simp⟩

/-! ### The first phase -/

/-- A first phase that fails has minimised its objective, and the artificial column is more than zero; or
it was cut short, and there is still optimising to do. -/
theorem flag_of_expelArtificial (exact : s.tableau.Exact)
    (stored : (s.tableau.rows.get? .artificialObjective).isSome) (pivotable : a.isPivotable = true)
    (failed : (expelArtificial a).run s = (.error fault, s')) :
    fault = .infeasible ∧ s'.needsOptimize = false ∨
      fault ≠ .infeasible ∧ s'.needsOptimize = true := by
  have ending : Ending .artificialObjective _ _ ((minimize .artificialObjective).run s.tableau) :=
    ending_minimize exact rfl
  generalize result : (minimize .artificialObjective).run s.tableau = ended at ending
  rw [expelArtificial, Step.run_bind_modify] at failed
  cases ending with
  | @reached t' goal turns feasible _ found minimal =>
      have exact' := turns.exact exact
      rw [Step.run_bind_of_ok (run_optimize_of_reached (s := { s with needsOptimize := true }) rfl
        result), Step.run_bind_get] at failed
      simp only [optimized, found, Step.run_bind_ofOption_some, exact'.exact, Option.isNone_some,
        Bool.false_eq_true, if_false] at failed
      by_cases near : t'.nearZero goal.constant = true
      · simp only [near, if_true] at failed
        cases inside : t'.rows.get? a with
        | none =>
            simp only [inside] at failed
            cases failed
        | some artificialRow =>
            rcases replacement?_cases artificialRow with ⟨none, -⟩ | ⟨entry, some, present, -⟩
            · simp only [inside, none] at failed
              cases failed
            · have pivotal : t'.Pivotal entry a artificialRow :=
                ⟨inside, present, Column.not_objective_of_pivotable pivotable⟩
              simp only [inside, some] at failed
              rw [run_onTableau_of_ok (exact'.run_pivot pivotal)] at failed
              cases failed
      · simp only [near, Bool.false_eq_true, if_false] at failed
        cases failed
        exact .inl ⟨rfl, rfl⟩
  | noObjective absent =>
      rw [absent] at stored
      cases stored
  | unbounded turns feasible found drives free =>
      rw [Step.run_bind_of_error (run_optimize_of_error (s := { s with needsOptimize := true }) rfl
        result)] at failed
      cases failed
      exact .inr ⟨by simp, rfl⟩
  | unfinished same descent =>
      rw [Step.run_bind_of_error (run_optimize_of_error (s := { s with needsOptimize := true }) rfl
        result)] at failed
      cases failed
      exact .inr ⟨by simp, rfl⟩

theorem Enterable.exact_phaseOne {t : Tableau Rat} (enterable : t.Enterable row a) (exact : t.Exact) :
    (t.phaseOne row a).Exact :=
  (exact.insertRow enterable.objective_storable).insertRow enterable.artificial_storable

namespace Addable

variable (addable : s.Addable row) (exact : s.tableau.Exact)
include addable exact

theorem flag_of_insertByPhaseOne (failed : (insertByPhaseOne row).run s = (.error fault, s')) :
    fault = .infeasible ∧ s'.needsOptimize = false ∨
      fault ≠ .infeasible ∧ s'.needsOptimize = true := by
  obtain ⟨label, answer, ended, expelled, ran⟩ := run_insertByPhaseOne s row
  have enterable := addable.enterable label
  generalize Column.symbol ⟨.artificial, label, s.nextSerial⟩ = a at expelled ran enterable
  obtain ⟨rfl, rfl⟩ := Prod.mk.inj (ran.symm.trans failed)
  have stored : ((s.staged row a).tableau.rows.get? .artificialObjective).isSome := by
    rw [staged, enterable.objective_found]
    rfl
  have flagged := flag_of_expelArtificial (Enterable.exact_phaseOne enterable exact) stored
    enterable.pivotable expelled
  exact flagged

/-- Putting a row in leaves optimising to do, unless it changes nothing. -/
theorem tells_insertRow (candidates : List Column) :
    s.Tells ((insertRow row candidates).run s) := by
  generalize ran : (insertRow row candidates).run s = ended
  obtain ⟨answer, s'⟩ := ended
  cases answer with
  | ok =>
      exact ⟨fun _ => truthful_of_needed (needsOptimize_insertRow ran), by simp, by simp⟩
  | error fault =>
      have cases : fault ≠ .infeasible ∧ s' = s ∨
          fault = .infeasible ∧ s'.needsOptimize = false ∨
            fault ≠ .infeasible ∧ s'.needsOptimize = true := by
        rw [insertRow, Step.run_bind_get] at ran
        have entry := chosen_basicColumn? 0 row candidates
        rw [← exact.exact] at entry
        cases chosen : basicColumn? s.tableau.tolerance row candidates with
        | error reason =>
            rw [chosen] at entry
            rw [chosen, Step.run_bind_ofExcept_error] at ran
            cases ran
            cases entry
            exact .inl ⟨by simp, rfl⟩
        | ok column? =>
            rw [chosen] at entry
            rw [chosen, Step.run_bind_ofExcept_ok] at ran
            cases column? with
            | none =>
                rcases Step.run_bind_eq_error ran with refused | ⟨_, _, -, modified⟩
                · exact .inr (addable.flag_of_insertByPhaseOne exact refused)
                · cases modified
            | some column =>
                dsimp only at ran
                rw [Step.run_bind_of_ok (run_onTableau_of_ok (run_insertSolved
                  addable.sound.toWellFormed addable.parametric entry.contains))] at ran
                cases ran
      refine ⟨fun same => absurd same Bool.false_ne_true, fun reason same other truthful => ?_,
        fun same => ?_⟩
      · obtain rfl : fault = reason := by cases same; rfl
        rcases cases with ⟨-, rfl⟩ | ⟨infeasible, -⟩ | ⟨-, needed⟩
        · exact truthful
        · exact absurd infeasible other
        · exact truthful_of_needed needed
      · obtain rfl : fault = .infeasible := by cases same; rfl
        rcases cases with ⟨other, -⟩ | ⟨-, done⟩ | ⟨other, -⟩
        · exact absurd rfl other
        · exact done
        · exact absurd rfl other

end Addable

/-! ### Calls -/

theorem tells_add (consistent : s.Consistent .free) (tolerance : s.tableau.tolerance = some 0)
    (c : Constraint Rat) : s.Tells ((add c).run s) := by
  obtain ⟨column, s₁, marking, fits, prepared⟩ :=
    exists_markedRow consistent.sound.toWellFormed c
  have tableau := prepared.tableau_eq fits Posed.weight_required
  have consistent₁ := (prepared.keeps.evolves tableau consistent).1
  have exact₁ : s₁.tableau.Exact := ⟨consistent₁.sound.toWellFormed, tableau ▸ tolerance⟩
  have inserting := ((consistent.addable fits prepared consistent₁.toIntact).tells_insertRow exact₁
    [column]).mono (s := s) fun truthful done => tableau ▸ truthful (prepared.flag ▸ done)
  rw [add, Step.run_bind_get]
  by_cases known : s.has c = true
  · rw [if_pos known, Step.run_failStep]
    exact .of_same (by simp)
  · rw [if_neg known]
    cases c.priority.isRequired with
    | false => exact .of_same (by simp)
    | true =>
        simp only [Bool.not_true, Bool.false_eq_true, if_false]
        rw [Step.run_bind_report, Step.run_bind_of_ok marking]
        generalize ran : (insertRow (s.posedRow (.required c column)) [column]).run s₁ = ended
          at inserting
        obtain ⟨answer, s₂⟩ := ended
        cases answer with
        | ok =>
            rw [Step.run_bind_of_ok ran, Step.run_bind_modify, run_snapshot]
            exact ⟨fun _ => inserting.answered rfl, by simp, by simp⟩
        | error fault =>
            rw [Step.run_bind_of_error ran]
            exact inserting

/-- Taking a constraint back leaves optimising to do, if there was one. -/
theorem run_remove_cases (wf : s.tableau.WellFormed) (c : Constraint Rat) :
    (remove c).run s = (.error (.constraintNotFound c), s) ∨
      ∃ s', (remove c).run s = (.ok (), s') ∧ s'.needsOptimize = true := by
  cases found : s.registered.get? c.tag with
  | none =>
      refine .inl ?_
      rw [remove, Step.run_bind_get, found]
      rfl
  | some registration =>
      obtain ⟨s', ran, removed⟩ := run_remove
        (p := .required registration.constraint registration.marker) wf found
        Posed.main_required.symm
      exact .inr ⟨s', ran, removed.needed⟩

end Simplex

end SoftSimplex
