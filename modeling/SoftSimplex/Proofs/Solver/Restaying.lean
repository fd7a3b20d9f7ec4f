import SoftSimplex.Proofs.Solver.Operating
import SoftSimplex.Proofs.Step.Together

/-!
Stays that are reset at rest.

A solver whose edits are optional, and from which no required equation was removed, serves its agenda
between the calls (`Operated.serves`). The columns of its stays are then free to be set to zero: the values
stay where they are, and with them the solver serves the agenda on which every stay has its variable's value
as its target, so that solving has nothing to do (`Operated.resetStays_spec`).
-/

namespace SoftSimplex

open Tableau

namespace Solver

variable {config : Config Rat} {agenda : List Entry} {s s' : Solver Rat}

/-! ### Restful runs -/

/-- The commands are restful, and the stays may be reset. -/
def Operation.Restful (config : Config Rat) (s : Solver Rat) (agenda : List Entry) : Operation → Prop
  | command given => given.Restful config s agenda
  | resetStays => True

namespace Serves

variable (serves : Serves config agenda s)
include serves

/-- Resetting the stays of a solver that serves its agenda moves the targets of the stays to where the
variables are. -/
theorem resetStays : Serves config (restayed s.depth s.currentValue agenda) s.resetStays := by
  obtain ⟨items, tends, rfl, settled⟩ := serves.settled
  obtain ⟨amount, tends', sustains⟩ := tends.resetStays
  exact ⟨⟨_, tends', agendaOf_changed _ _ _, sustains.settled settled⟩, serves.repaired⟩

/-- Restful operations keep a solver that serves an agenda without required edits. -/
theorem operated (settings : config.Exact) (pliant : Pliant agenda) {operation : Operation}
    (restful : operation.Restful config s agenda) (ran : operation.step.run s = (.ok (), s')) :
    Serves config (operation.next s agenda) s' ∧ Pliant (operation.next s agenda) := by
  cases operation with
  | resetStays =>
      obtain ⟨-, rfl⟩ := Prod.mk.inj ran
      exact ⟨serves.resetStays, Waives.map pliant (lasting_edit.restayed _ _)⟩
  | command command =>
      refine ⟨serves.called settings (serves.spares_of_restful settings pliant restful ran) ran,
        serves.waives_next settings lasting_edit pliant ?_ ran⟩
      rintro wishes rfl wish member s edits
      cases wish with
      | stay v value asked => exact absurd rfl edits
      | edit v asked => exact restful v asked member

end Serves

/-- A solver that was reached by restful operations serves its agenda. -/
theorem Operated.serves (settings : config.Exact)
    (operated : Operated config (Operation.Restful config) agenda s) :
    Serves config agenda s ∧ Pliant agenda := by
  induction operated with
  | created => exact ⟨serves_create settings, fun _ member => absurd member List.not_mem_nil⟩
  | called before operation permitted ran ih => exact ih.1.operated settings ih.2 permitted ran

/-! ### Solving at rest -/

theorem quiet_readValues : (readValues : Step Rat (Solver Rat) (Values Rat)).Quiet :=
  (Step.Quiet.bind_get fun _ => Step.quiet_ofExcept _).zoom.bind fun _ =>
    (Step.quiet_modify _).bind fun _ => Step.quiet_pure _

/-- Where there is nothing to gain and nothing to repair, solving makes no pivot. -/
theorem pivots_solve (done : s.simplex.needsOptimize = false) (repaired : s.needsRepair = false) :
    (solve s).pivots = [] := by
  have resting : onSimplex Simplex.optimize s = (Step.pure () : Step Rat (Solver Rat) Unit) s := by
    rw [onSimplex, Step.zoom, Simplex.optimize, Step.bind_get_apply, done, if_neg Bool.false_ne_true]
    rfl
  have answered : (onSimplex Simplex.optimize s).result = .ok () := congrArg (·.result) resting
  rw [solve, Step.bind_get_apply, repaired, if_neg Bool.false_ne_true,
    Step.pivots_bind_of_ok answered, quiet_readValues, resting]
  rfl

/-- Whatever operations were answered before: if values were suggested in batches, no edit was required and
no required equation was removed, resetting the stays moves no variable and changes no coefficient, and the
restricted rows stay nonnegative and the objective row optimal. The rows are then those of the agenda on
which every stay has the value of its variable as its target; of the objective row that concerns the
coefficients, as the solver never answers with its constant. The values are best for that agenda, and
solving answers with them without a pivot. -/
theorem Operated.resetStays_spec (settings : config.Exact)
    (operated : Operated config (Operation.Restful config) agenda s) :
    s.resetStays.currentValue = s.currentValue ∧ s.tableau.Alike s.resetStays.tableau ∧
      s.resetStays.tableau.Upright ∧ s.resetStays.tableau.Optimized ∧
      (∀ e ∈ agenda, ∀ d v target, e.role = .stay d v target → d < s.depth) ∧
      Embodies (restayed s.depth s.currentValue agenda) s.resetStays ∧
      config.Optimal (wanted (restayed s.depth s.currentValue agenda)) s.currentValue ∧
      ∃ values, (solve s.resetStays).result = .ok values ∧ values.value = s.currentValue ∧
        (solve s.resetStays).pivots = [] := by
  have serves := (operated.serves settings).1
  have reset := serves.resetStays
  obtain ⟨items, tends, rfl, -⟩ := serves.settled
  have current := tends.currentValue_resetStays
  have best := reset.optimal settings
  rw [current] at best
  obtain ⟨items', tends', same, settled⟩ := reset.settled
  obtain ⟨s', solved, -⟩ := reset.run_solve
  refine ⟨current, alike_zeroed _ _, settled.shaped.steady.upright, settled.optimized, ?_,
    same ▸ tends'.embodies, best, _, congrArg Prod.fst solved, ?_,
    pivots_solve settled.done reset.repaired⟩
  · refine List.forall_mem_map.2 fun i inside d v target role => tends.within i inside d ?_
    rw [show i.role = .stay d v target from role, Role.depth?]
  · rw [tends'.value_eq, current]

/-- An unknown is to be as large as another one. -/
def atLeastOther : Constraint Rat :=
  { tag := .given 1, left := .variable ⟨"y", 0⟩, comparator := .ge, right := .variable ⟨"x", 0⟩ }

/-- The solver that keeps an unknown below two while three is suggested for it, and in which another one was
to stay at zero but has to follow. -/
def dragged : Solver Rat :=
  ((Step.forEach [.command (.add atMostTwo),
    .command (.beginEdit [.stay ⟨"y", 0⟩ none none, .edit ⟨"x", 0⟩ none]),
    .command (.suggest [(⟨"x", 0⟩, 3)]), .command (.add atLeastOther)] Operation.step).run
      (create exactSettings)).2

/-- The error of the stay is forgotten: from now on its variable is to stay at two. -/
theorem resetStays_spec_dragged :
    let error : Column := .symbol ⟨.slack, "ep1", 3⟩
    ∃ agenda, Operated exactSettings (Operation.Restful exactSettings) agenda dragged ∧
      (dragged.tableau.rows.get? error).map (·.constant) = some 2 ∧
      (dragged.resetStays.tableau.rows.get? error).map (·.constant) = some 0 ∧
      dragged.currentValue ⟨"y", 0⟩ = 2 ∧ dragged.resetStays.currentValue = dragged.currentValue ∧
      Embodies (restayed dragged.depth dragged.currentValue agenda) dragged.resetStays ∧
      exactSettings.Optimal (wanted (restayed dragged.depth dragged.currentValue agenda))
        dragged.currentValue ∧
      (solve dragged.resetStays).pivots = [] := by
  intro error
  have optional : exactSettings.editPriority ≠ .required := Priority.noConfusion
  obtain ⟨_, ran⟩ := Step.run_of_isOk (show ((Step.forEach [.command (.add atMostTwo),
    .command (.beginEdit [.stay ⟨"y", 0⟩ none none, .edit ⟨"x", 0⟩ none]),
    .command (.suggest [(⟨"x", 0⟩, 3)]), .command (.add atLeastOther)] Operation.step).run
      (create exactSettings)).1.isOk = true by decide +kernel)
  obtain ⟨agenda, operated⟩ : ∃ agenda,
      Operated exactSettings (Operation.Restful exactSettings) agenda dragged :=
    Operated.created.forEach
      (by simp [Operation.Restful, Command.Restful, atMostTwo, atLeastOther, askedPriority, optional]) ran
  obtain ⟨current, -, -, -, -, embodies, best, values, -, -, pivots⟩ :=
    Operated.resetStays_spec exact_exactSettings operated
  exact ⟨agenda, operated, by decide +kernel, by decide +kernel, by decide +kernel, current, embodies,
    best, pivots⟩

end Solver

end SoftSimplex
