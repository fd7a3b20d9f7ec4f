import SoftSimplex.Proofs.Simplex.Loosening
import SoftSimplex.Proofs.Solver.Equations
import SoftSimplex.Proofs.Solver.Failing

/-!
Suggestions that are interrupted.

Opening or closing a session while suggestions await repair drops the record of the rows that they made
negative. If there are none the next solution is best for the agenda all the same. Else it satisfies what
the agenda requires only if the markers happen to be tight, and where a session is opened without a wish
it is what the suggestions left behind (`pending_spec`).
-/

namespace SoftSimplex

open Tableau

namespace Solver

variable {config : Config Rat} {agenda : List Entry} {items : List Item} {s s' : Solver Rat}
  {bound : ℕ} {values : Values Rat} {wishes : List (Wish Rat)} {batch : Values Rat}

/-! ### Values of any solver -/

theorem Tends.registers_iff (tends : Tends config bound items s) {c : Constraint Rat}
    {marker : Column} : s.simplex.Registers c marker ↔
      ∃ i ∈ items, i.constraint = c ∧ i.markers.main = marker := by
  rw [Simplex.Registers, tends.priced.registered, Option.map_eq_some_iff]
  constructor
  · rintro ⟨p, found, same⟩
    obtain ⟨constraint, main⟩ := Registration.mk.inj same
    obtain ⟨i, inside, rfl⟩ := List.mem_map.1 (List.mem_of_find?_eq_some found)
    exact ⟨i, inside, constraint, main⟩
  · rintro ⟨i, inside, rfl, rfl⟩
    exact ⟨i.toPosed, tends.priced.family.find?_tag (mem_posedOf inside), rfl⟩

/-- Whatever state a tableau is in, its values satisfy an agenda exactly if the markers of the required
constraints are tight. -/
theorem Tends.satisfies_iff_tight (settings : config.Exact) (tends : Tends config bound items s) :
    Satisfies s.currentValue (wanted (agendaOf items)) ↔ s.simplex.Tight := by
  rw [← tends.meetsRequired_iff settings, currentValue_eq]
  have weight (i : Item) (inside : i ∈ items) :
      i.markers.weight = none ↔ i.constraint.priority = .required := by
    rw [tends.weights i inside, settings.weight_eq_none_iff]
  have met (i : Item) (inside : i ∈ items) (required : i.markers.weight = none) :
      i.Met (onVariables s.tableau.basicSolution) ↔ s.tableau.Tight i.markers.main := by
    refine (Posed.met_iff_admissible (tends.priced.family.fits _ (mem_posedOf inside))
      ((weight i inside).1 required) required (tends.priced.equation (mem_posedOf inside))).trans ?_
    exact ⟨fun both => ⟨both.1, both.2⟩, fun tight => ⟨tight.zero, tight.nonneg⟩⟩
  constructor
  · intro meets c marker registers required
    obtain ⟨i, inside, rfl, rfl⟩ := tends.registers_iff.1 registers
    have unweighted := (weight i inside).2 required
    exact (met i inside unweighted).1 (meets _ (mem_posedOf inside) unweighted)
  · intro tight p member required
    obtain ⟨i, inside, rfl⟩ := List.mem_map.1 member
    exact (met i inside required).2 (tight _ _ (tends.registers_iff.2 ⟨i, inside, rfl, rfl⟩)
      ((weight i inside).1 required))

/-- A repair that answers keeps an agenda, whatever state the tableau was in. -/
theorem Tends.repaired (tends : Tends config bound items s) (recorded : s.tableau.Recorded)
    (ran : (onSimplex Simplex.repair).run s = (.ok (), s')) :
    ∃ t', s' = s.withSimplex (s.simplex.withTableau t') ∧ Tends config bound items s' := by
  generalize repaired : (Tableau.repair .objective).run s.simplex.tableau = ended
  obtain ⟨answer, t'⟩ := ended
  cases answer with
  | error fault =>
      have failed : (onSimplex Simplex.repair).run s = _ :=
        run_onSimplex_of_error (Simplex.run_onTableau_of_error repaired)
      rw [failed] at ran
      cases ran
  | ok answer =>
      have answered : (onSimplex Simplex.repair).run s = _ :=
        run_onSimplex_of_ok (Simplex.run_onTableau_of_ok repaired)
      rw [answered] at ran
      obtain ⟨-, rfl⟩ := Prod.mk.inj ran
      have recast := recast_of_repair tends.priced.exact recorded repaired
      exact ⟨t', rfl, tends.congr (tends.priced.recast recast) rfl rfl rfl le_rfl⟩

/-- A repair that answers is followed by reading the values, and by resetting the stays. -/
theorem Tends.run_solveRepaired_eq_ok (tends : Tends config bound items s)
    (recorded : s.tableau.Recorded) (solved : solveRepaired.run s = (.ok values, s')) :
    ∃ repaired, (onSimplex Simplex.repair).run s = (.ok (), repaired) ∧
      Tends config bound items repaired ∧ repaired.sessions = s.sessions ∧
      values = repaired.simplex.values ∧
      s' = { { repaired with cached := values }.forgetInfeasible.resetStays with
        needsRepair := false } := by
  obtain ⟨_, repaired, repairing, rest⟩ := Step.run_bind_eq_ok solved
  obtain ⟨values', s₂, read, last⟩ := Step.run_bind_eq_ok rest
  obtain ⟨t', same, tends'⟩ := tends.repaired recorded repairing
  rw [tends'.run_readValues] at read
  obtain ⟨answer, rfl⟩ := Prod.mk.inj read
  rw [Step.run_bind_modify] at last
  obtain ⟨answered, rfl⟩ := Prod.mk.inj last
  have value : values = repaired.simplex.values := by
    rw [← Except.ok.inj answered, ← Except.ok.inj answer]
  exact ⟨repaired, repairing, tends', same ▸ rfl, value, value ▸ rfl⟩

/-- The values that are read after a repair satisfy an agenda exactly if the markers are tight then. -/
theorem Tends.run_solve_of_repair (settings : config.Exact) (tends : Tends config bound items s)
    (recorded : s.tableau.Recorded) (repair : s.needsRepair = true)
    (solved : solve.run s = (.ok values, s')) :
    ∃ repaired, (onSimplex Simplex.repair).run s = (.ok (), repaired) ∧
      values = repaired.simplex.values ∧
      (Satisfies values.value (wanted (agendaOf items)) ↔ repaired.simplex.Tight) := by
  rw [solve, Step.run_bind_get, if_pos repair] at solved
  obtain ⟨repaired, repairing, tends', -, value, -⟩ := tends.run_solveRepaired_eq_ok recorded solved
  refine ⟨repaired, repairing, value, ?_⟩
  rw [value, tends'.value_eq]
  exact tends'.satisfies_iff_tight settings

/-- Where nothing awaits repair, solving optimises and reads the values. -/
theorem Tends.run_solve_of_optimize (settings : config.Exact) (tends : Tends config bound items s)
    (repaired : s.needsRepair = false) (solved : solve.run s = (.ok values, s')) :
    Satisfies values.value (wanted (agendaOf items)) ↔ s'.simplex.Tight := by
  obtain ⟨inner, optimized, rfl, rfl⟩ := run_solve_eq_ok tends.toPoses repaired solved
  obtain ⟨turned, -⟩ := Simplex.turns_of_optimize tends.priced.exact rfl optimized
  have tends' : Tends config bound items (s.withSimplex inner) :=
    tends.congr (tends.priced.turned turned) rfl rfl rfl turned.nextMade.ge
  have tight := tends'.satisfies_iff_tight settings
  rw [← tends'.value_eq] at tight
  exact tight

/-! ### Suggestions that leave no row negative -/

/-- A settled solver solves to an optimum, whether or not a repair is called for. -/
theorem Tends.solves (settings : config.Exact) (tends : Tends config s.depth items s)
    (settled : s.simplex.Settled (posedOf items)) :
    ∃ values s', solve.run s = (.ok values, s') ∧
      config.Optimal (wanted (agendaOf items)) values.value := by
  have best := tends.optimal settings settled
  cases repair : s.needsRepair with
  | false =>
      refine ⟨_, _, tends.toPoses.run_solve settled.done repair, ?_⟩
      rw [tends.value_eq]
      exact best
  | true =>
      have owes : Owes config (agendaOf items) s :=
        ⟨⟨items, tends, rfl⟩, settled.mendable, settled.done⟩
      have mended := owes.solveRepaired settings
      rw [solve, Step.run_bind_get, if_pos repair]
      generalize solveRepaired.run s = ended at mended
      cases mended with
      | solved _ _ _ _ serves => exact ⟨_, _, rfl, (serves _ best.1).2⟩
      | failed _ _ _ unsatisfied => exact absurd best.1 (unsatisfied _)

section

variable (settings : config.Exact) (owes : Owes config agenda s) (upright : s.tableau.Upright)
  (satisfiable : ∃ x, Satisfies x (wanted agenda))
include settings owes upright satisfiable

theorem Owes.solves_begun (ran : (beginEdit wishes).run s = (.ok (), s')) :
    ∃ values s'', solve.run s' = (.ok values, s'') ∧
      config.Optimal (wanted (s.begun wishes agenda)) values.value := by
  obtain ⟨x, satisfies⟩ := satisfiable
  obtain ⟨items, tends, rfl, settled⟩ := owes.settled settings upright satisfies
  obtain ⟨items', tends', -, -, agenda', -, sustains⟩ := tends.begun settings ran
  rw [← agenda']
  exact tends'.solves settings (sustains.settled settled)

theorem Owes.solves_ended (lenient : Lenient agenda) (ran : endEdit.run s = (.ok (), s')) :
    config.Optimal (wanted (s.ended agenda)) s'.cached.value ∧
      ∃ s'', solve.run s' = (.ok s'.cached, s'') := by
  obtain ⟨x, satisfies⟩ := satisfiable
  obtain ⟨items, tends, rfl, settled⟩ := owes.settled settings upright satisfies
  obtain ⟨items', tends', repaired, cached, agenda', sustains, sparing⟩ := tends.ended settings ran
  have settled' := (sustains (sparing (Lenient.removable lenient))).settled settled
  rw [cached, tends'.value_eq, ← agenda']
  exact ⟨tends'.optimal settings settled', _, tends'.toPoses.run_solve settled'.done repaired⟩

end

/-! ### Sessions that are opened without a wish -/

/-- A session without a wish makes the solver forget the repair that it owes, so that it reads the values
that suggestions left behind. -/
theorem Owes.run_begun_nil (owes : Owes config agenda s) :
    ∃ s' values s'', (beginEdit []).run s = (.ok (), s') ∧ solve.run s' = (.ok values, s'') ∧
      values.value = s.currentValue := by
  obtain ⟨items, tends, rfl⟩ := owes.tends
  have empty := tends.sessionAt_depth
  obtain ⟨items', tends', -⟩ := (tends.weaken (Nat.le_succ _)).opened
  rw [empty] at tends'
  have optimizing : (onSimplex Simplex.optimize).run (s.opening {}) = (.ok (), s.opening {}) :=
    run_onSimplex_of_ok (Simplex.run_optimize_of_not_needed owes.done)
  have opened : (beginEdit []).run s = (.ok (), s.opening {}) := by
    have filled : (fulfilAll {} ([] : List (Wish Rat))).transaction.run s = (.ok {}, s) :=
      Step.run_transaction_of_ok rfl
    rw [beginEdit, Step.run_bind_of_ok filled, Step.run_bind_modify]
    exact (Step.run_bind_of_ok optimizing).trans (run_onSimplex_of_ok (Simplex.run_snapshot _ _))
  obtain ⟨s'', solved⟩ := tends'.run_solve_of_unrecorded owes.done (unrecorded_opening s {})
  refine ⟨_, _, s'', opened, solved, ?_⟩
  have current := (tends.weaken (Nat.le_succ _)).currentValue_opening
  rw [empty] at current
  rw [tends'.value_eq, current]

/-! ### Interruptions -/

/-- Opening or closing a session after suggestions drops what awaits repair. If the suggestions left no row
negative, then the next solution is best for the agenda, as is the one that closing a session keeps. In any
case the next solution satisfies what is required exactly if the markers of the required constraints are
tight when it is read, and where a session is opened without a wish these are the values that the
suggestions left behind. -/
theorem pending_spec (config : Config Rat) (settings : config.Exact) (agenda : List Entry)
    (s : Solver Rat) (edited : Edited config (fun _ => Command.Gentle config) agenda s)
    (batch : Values Rat) (editable : ∀ entry ∈ batch, Editable agenda entry.1) :
    ∃ pending, (Step.forEach batch fun entry => suggestValue entry.1 entry.2).run s =
        (.ok (), pending) ∧
      (pending.tableau.Upright →
        (∀ wishes s', (beginEdit wishes).run pending = (.ok (), s') →
          ∃ values s'', solve.run s' = (.ok values, s'') ∧
            config.Optimal (wanted (pending.begun wishes (retargetedAll batch agenda)))
              values.value) ∧
        ∀ s', endEdit.run pending = (.ok (), s') →
          config.Optimal (wanted (pending.ended (retargetedAll batch agenda))) s'.cached.value ∧
            ∃ s'', solve.run s' = (.ok s'.cached, s'')) ∧
      (∀ s', endEdit.run pending = (.ok (), s') →
        (Satisfies s'.cached.value (wanted (pending.ended (retargetedAll batch agenda))) ↔
          s'.simplex.Tight) ∧
        ∀ values s'', solve.run s' = (.ok values, s'') →
          (Satisfies values.value (wanted (pending.ended (retargetedAll batch agenda))) ↔
            s''.simplex.Tight)) ∧
      (batch ≠ [] → ∀ wishes s', (beginEdit wishes).run pending = (.ok (), s') →
        ∀ values s'', solve.run s' = (.ok values, s'') →
          ∃ repaired, (onSimplex Simplex.repair).run s' = (.ok (), repaired) ∧
            values = repaired.simplex.values ∧
            (Satisfies values.value (wanted (pending.begun wishes (retargetedAll batch agenda))) ↔
              repaired.simplex.Tight)) ∧
      ∃ s' values s'', (beginEdit []).run pending = (.ok (), s') ∧
        solve.run s' = (.ok values, s'') ∧ values.value = pending.currentValue := by
  obtain ⟨serves, lenient⟩ := edited.serves settings
  obtain ⟨pending, ran, owes, repair⟩ := serves.owes.suggestedAll editable
  have satisfiable : ∃ x, Satisfies x (wanted (retargetedAll batch agenda)) :=
    ⟨_, lenient.pliant.satisfies_retargetedAll (serves.optimal settings).1 batch⟩
  obtain ⟨items, tends, agenda'⟩ := owes.tends
  refine ⟨pending, ran, fun upright => ⟨fun wishes s' => ?_, fun s' => ?_⟩, fun s' ended => ?_,
    fun nonempty wishes s' begun values s'' solved => ?_, owes.run_begun_nil⟩
  · exact owes.solves_begun settings upright satisfiable
  · exact owes.solves_ended settings upright satisfiable (lenient.retargetedAll batch)
  · obtain ⟨items', tends', repaired, cached, same, -⟩ := tends.ended settings ended
    rw [← agenda', ← same]
    refine ⟨?_, fun values s'' solved => tends'.run_solve_of_optimize settings repaired solved⟩
    rw [cached, tends'.value_eq]
    exact tends'.satisfies_iff_tight settings
  · obtain ⟨items', tends', -, still, same, recorded, -⟩ := tends.begun settings begun
    rw [← agenda', ← same]
    have called : pending.needsRepair = true := by
      rw [repair]
      simp [nonempty]
    exact tends'.run_solve_of_repair settings recorded (still.trans called) solved

/-! ### An unknown that is left below its bound -/

/-- The solver that bounds an unknown and lets it be edited. -/
def lifted : Solver Rat :=
  ((add nonnegative >>= fun _ => beginEdit [.edit ⟨"x", 0⟩ none]).run (create exactSettings)).2

/-- An unknown that is pulled below its bound stays there once another session was opened. -/
theorem pending_spec_lifted : ∃ agenda pending s' values s'',
    Edited exactSettings (fun _ => Command.Gentle exactSettings) agenda lifted ∧
    (Step.forEach [(⟨"x", 0⟩, -5)] fun entry => suggestValue entry.1 entry.2).run lifted =
      (.ok (), pending) ∧
    (beginEdit []).run pending = (.ok (), s') ∧ solve.run s' = (.ok values, s'') ∧
    values.value ⟨"x", 0⟩ = -5 ∧
    ¬Satisfies values.value (wanted (pending.begun [] (retargeted ⟨"x", 0⟩ (-5) agenda))) := by
  obtain ⟨_, ran⟩ := Step.run_of_isOk (show ((add nonnegative >>= fun _ =>
    beginEdit [.edit ⟨"x", 0⟩ none]).run (create exactSettings)).1.isOk = true by decide +kernel)
  obtain ⟨_, s₁, first, second⟩ := Step.run_bind_eq_ok ran
  have edited : Edited exactSettings (fun _ => Command.Gentle exactSettings) _ lifted :=
    .called (.called .created (.add nonnegative) ⟨0, rfl⟩ first) (.beginEdit [.edit ⟨"x", 0⟩ none])
      (List.forall_mem_singleton.2 Priority.noConfusion) second
  have editable := (edited.serves exact_exactSettings).1.owes.exists_edit?_iff.1
    (Option.isSome_iff_exists.1 (show (lifted.edit? ⟨"x", 0⟩).isSome = true by decide +kernel))
  obtain ⟨pending, suggested, -, -, -, s', values, s'', begun, solved, left⟩ :=
    pending_spec exactSettings exact_exactSettings _ _ edited [(⟨"x", 0⟩, -5)]
      (List.forall_mem_singleton.2 editable)
  have read : ((Step.forEach [((⟨"x", 0⟩, -5) : Variable × Rat)] fun entry =>
      suggestValue entry.1 entry.2).run lifted).2.currentValue ⟨"x", 0⟩ = -5 := by decide +kernel
  rw [suggested] at read
  have below : values.value ⟨"x", 0⟩ = -5 := left ▸ read
  refine ⟨_, pending, s', values, s'', edited, suggested, begun, solved, below, fun satisfies => ?_⟩
  obtain ⟨y, agenda⟩ := begun_singleton second [⟨nonnegative, .given⟩]
  change Satisfies values.value (wanted (restayed _ _ (retargeted ⟨"x", 0⟩ (-5)
    (s₁.begun _ [⟨nonnegative, .given⟩])))) at satisfies
  rw [agenda] at satisfies
  have bound : 0 ≤ values.value ⟨"x", 0⟩ :=
    (satisfies_cons.1 (satisfies_cons.1 satisfies).2).1 rfl
  linarith

end Solver

end SoftSimplex
