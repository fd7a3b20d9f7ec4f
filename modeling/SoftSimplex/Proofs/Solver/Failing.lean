import SoftSimplex.Proofs.Solver.Forcing

/-!
Solving that failed.

When the dual method fails it has given up one negative row, which is not recorded any more; all other
negative rows still are. No assignment satisfies the agenda then, so that a further attempt to solve
without a change in between either fails again or returns values that violate something required, and it
does return values if no other row is recorded (`Edited.failed_spec`).
-/

namespace SoftSimplex

open Tableau

namespace Solver

variable {config : Config Rat} {agenda : List Entry} {s s' : Solver Rat} {batch : Values Rat}
  {command : Command} {fault : Fault Rat} {values : Values Rat}

/-- Nothing is removed, and constraints join only while nothing awaits repair and the agenda can be
satisfied. -/
def Command.Growing (s : Solver Rat) (agenda : List Entry) : Command → Prop
  | add c => (∃ n, c.tag = .given n) ∧ s.needsRepair = false ∧ ∃ x, Satisfies x (wanted agenda)
  | beginEdit _ => s.needsRepair = false ∧ ∃ x, Satisfies x (wanted agenda)
  | suggest _ => True
  | suggestValue _ _ => True
  | solve => True
  | _ => False

/-- A solver tends an agenda, and where no repair is called for no row is negative. -/
structure Keeps (config : Config Rat) (agenda : List Entry) (s : Solver Rat) : Prop
    extends Owes config agenda s where
  upright : s.needsRepair = false → s.tableau.Upright

theorem Serves.keeps (serves : Serves config agenda s) : Keeps config agenda s := by
  refine ⟨serves.owes, fun _ => ?_⟩
  obtain ⟨items, -, -, settled⟩ := serves.settled
  exact settled.shaped.upright

namespace Keeps

variable (settings : config.Exact) (keeps : Keeps config agenda s)
include settings keeps

theorem serves (repaired : s.needsRepair = false) (satisfiable : ∃ x, Satisfies x (wanted agenda)) :
    Serves config agenda s := by
  obtain ⟨x, satisfies⟩ := satisfiable
  exact keeps.toOwes.serves settings (keeps.upright repaired) repaired satisfies

omit settings in
/-- Solving while no repair is called for reads the values of the tableau. -/
theorem run_solve (repaired : s.needsRepair = false) :
    solve.run s = (.ok s.simplex.values, { s with cached := s.simplex.values }) := by
  obtain ⟨items, tends, -⟩ := keeps.tends
  exact tends.toPoses.run_solve keeps.done repaired

omit keeps in
/-- A repair that answers leaves no row negative. -/
theorem of_solveRepaired (owes : Owes config agenda s)
    (ran : solveRepaired.run s = (.ok values, s')) :
    Keeps config (restayed s'.depth s'.currentValue agenda) s' := by
  have mended := owes.solveRepaired settings
  rw [ran] at mended
  cases mended with
  | solved owes' upright _ _ _ => exact ⟨owes', fun _ => upright⟩

theorem next (growing : command.Growing s agenda) (ran : command.step.run s = (.ok (), s')) :
    Keeps config (command.next s agenda) s' := by
  cases command with
  | add c =>
      obtain ⟨given, repaired, satisfiable⟩ := growing
      exact ((keeps.serves settings repaired satisfiable).added settings given ran).keeps
  | remove c => exact growing.elim
  | beginEdit wishes =>
      obtain ⟨repaired, satisfiable⟩ := growing
      exact ((keeps.serves settings repaired satisfiable).begun settings ran).keeps
  | endEdit => exact growing.elim
  | suggest batch =>
      obtain ⟨values, ran⟩ := run_of_discarded ran
      have editable := keeps.editable_of_suggest ran fun _ _ same => by cases same
      obtain ⟨s₁, same, owes⟩ := keeps.run_suggest editable
      rw [Command.next, ran]
      exact of_solveRepaired settings owes (same ▸ ran)
  | suggestValue v value =>
      obtain ⟨s₁, suggested, owes, repair⟩ :=
        keeps.suggested (keeps.editable_of_suggestValue ran) value
      rw [Command.step, suggested] at ran
      obtain ⟨-, rfl⟩ := Prod.mk.inj ran
      refine ⟨owes, fun repaired => ?_⟩
      rw [repair] at repaired
      cases repaired
  | solve =>
      obtain ⟨values, ran⟩ := run_of_discarded ran
      rw [Command.next, ran]
      cases repair : s.needsRepair with
      | true =>
          rw [solve, Step.run_bind_get, if_pos repair] at ran
          exact of_solveRepaired settings keeps.toOwes ran
      | false =>
          rw [keeps.run_solve repair] at ran
          obtain ⟨-, rfl⟩ := Prod.mk.inj ran
          exact ⟨keeps.congr rfl rfl rfl rfl, fun _ => keeps.upright repair⟩

end Keeps

theorem Edited.keeps (settings : config.Exact) (edited : Edited config Command.Growing agenda s) :
    Keeps config agenda s := by
  induction edited with
  | created => exact (serves_create settings).keeps
  | called before command permitted ran ih => exact ih.next settings permitted ran

/-! ### Failures -/

/-- The agenda that a command sets out to satisfy. -/
def Command.sought (agenda : List Entry) : Command → List Entry
  | suggest batch => retargetedAll batch agenda
  | _ => agenda

/-- A command that solves. -/
def Command.Solves : Command → Prop
  | suggest _ => True
  | solve => True
  | _ => False

/-- What failing to solve leaves behind. -/
structure Failed (config : Config Rat) (agenda : List Entry) (s : Solver Rat) : Prop where
  tends : ∃ items, Tends config s.depth items s ∧ agendaOf items = agenda
  done : s.simplex.needsOptimize = false
  abandoned : ∃ exit row, s.tableau.Abandoned exit row
  unsatisfied : ∀ x, ¬Satisfies x (wanted agenda)

theorem failed_of_solveRepaired (settings : config.Exact) (owes : Owes config agenda s)
    (ran : solveRepaired.run s = (.error fault, s')) : Failed config agenda s' := by
  have mended := owes.solveRepaired settings
  rw [ran] at mended
  cases mended with
  | failed tends done abandoned unsatisfied => exact ⟨tends, done, abandoned, unsatisfied⟩

theorem Keeps.failed (settings : config.Exact) (keeps : Keeps config agenda s)
    (solves : command.Solves) (ran : command.step.run s = (.error .dualFailed, s')) :
    Failed config (command.sought agenda) s' := by
  cases command with
  | add c => exact solves.elim
  | remove c => exact solves.elim
  | beginEdit wishes => exact solves.elim
  | endEdit => exact solves.elim
  | suggestValue v value => exact solves.elim
  | suggest batch =>
      have ran := run_of_discarded_error ran
      have editable := keeps.editable_of_suggest ran fun _ _ same => by cases same
      obtain ⟨s₁, same, owes⟩ := keeps.run_suggest editable
      exact failed_of_solveRepaired settings owes (same ▸ ran)
  | solve =>
      have ran := run_of_discarded_error ran
      cases repair : s.needsRepair with
      | true =>
          rw [solve, Step.run_bind_get, if_pos repair] at ran
          exact failed_of_solveRepaired settings keeps.toOwes ran
      | false =>
          rw [keeps.run_solve repair] at ran
          cases ran

/-- The dual method forgets exactly the row at which it fails. Once a solver failed so, nothing satisfies
what it was asked for, and any values that it returns without a change in between violate something
required; it returns some if no other row is recorded. -/
theorem failed_spec (config : Config Rat) (settings : config.Exact) :
    (∀ (t t' : Tableau Rat) (objective : Column), t.Exact → t.Tracked →
      (Tableau.repair objective).run t = (.error .dualFailed, t') →
        ∃ exit row, t'.Abandoned exit row) ∧
    ∀ agenda s, Edited config Command.Growing agenda s →
      ∀ (command : Command) (s' : Solver Rat), command.Solves →
        command.step.run s = (.error .dualFailed, s') →
          (∃ exit row, s'.tableau.Abandoned exit row) ∧
          (∀ x, ¬Satisfies x (wanted (command.sought agenda))) ∧
          (∀ values s'', solve.run s' = (.ok values, s'') →
            ¬Satisfies values.value (wanted (command.sought agenda))) ∧
          ((∀ key, key ∉ s'.tableau.infeasible) →
            ∃ values s'', solve.run s' = (.ok values, s'')) := by
  refine ⟨fun t t' objective exact tracked => abandoned_of_repair exact tracked, ?_⟩
  intro agenda s edited command s' solves ran
  have failed := (edited.keeps settings).failed settings solves ran
  refine ⟨failed.abandoned, failed.unsatisfied, fun values s'' _ => failed.unsatisfied _, ?_⟩
  intro nothing
  obtain ⟨items, tends, -⟩ := failed.tends
  obtain ⟨s'', solved⟩ := tends.run_solve_of_unrecorded failed.done nothing
  exact ⟨_, s'', solved⟩

/-! ### A required edit of an unknown that is bounded -/

/-- An unknown is to be zero at least. -/
def nonnegative : Constraint Rat :=
  { tag := .given 0, left := .variable ⟨"x", 0⟩, comparator := .ge, right := .constant 0 }

/-- The solver that bounds an unknown and lets it be edited by a required edit. -/
def bounded : Solver Rat :=
  ((add nonnegative >>= fun _ => beginEdit [.edit ⟨"x", 0⟩ (some (.priority .required))]).run
    (create exactSettings)).2

/-- Pulling the unknown below its bound fails once, and then it lies there. -/
theorem failed_spec_bounded : ∃ agenda s',
    Edited exactSettings Command.Growing agenda bounded ∧
    (suggest [(⟨"x", 0⟩, -5)]).run bounded = (.error .dualFailed, s') ∧
    ∃ values s'', solve.run s' = (.ok values, s'') ∧ values.value ⟨"x", 0⟩ = -5 ∧
      ¬Satisfies values.value (wanted (retargeted ⟨"x", 0⟩ (-5) agenda)) := by
  obtain ⟨_, ran⟩ := Step.run_of_isOk (show ((add nonnegative >>= fun _ =>
    beginEdit [.edit ⟨"x", 0⟩ (some (.priority .required))]).run
      (create exactSettings)).1.isOk = true by decide +kernel)
  obtain ⟨_, s₁, first, second⟩ := Step.run_bind_eq_ok ran
  have start : Edited exactSettings Command.Growing [] (create exactSettings) := .created
  have added := start.called (.add nonnegative)
    ⟨⟨0, rfl⟩, rfl, fun _ => 0, fun _ member => absurd member List.not_mem_nil⟩ first
  have calm := ((serves_create exact_exactSettings).added exact_exactSettings ⟨0, rfl⟩ first).repaired
  have satisfiable : Satisfies (fun _ => 0) (wanted [⟨nonnegative, .given⟩]) :=
    satisfies_cons.2 ⟨fun _ => le_rfl, fun _ member => absurd member List.not_mem_nil⟩
  have edited : Edited exactSettings Command.Growing _ bounded :=
    added.called (.beginEdit [.edit ⟨"x", 0⟩ (some (.priority .required))])
      ⟨calm, _, satisfiable⟩ second
  have keeps := edited.keeps exact_exactSettings
  have editable := keeps.exists_edit?_iff.1
    (Option.isSome_iff_exists.1 (show (bounded.edit? ⟨"x", 0⟩).isSome = true by decide +kernel))
  have all : ∀ entry ∈ [((⟨"x", 0⟩, -5) : Variable × Rat)], Editable _ entry.1 :=
    List.forall_mem_singleton.2 editable
  obtain ⟨s₂, same, owes⟩ := keeps.run_suggest all
  have mended := owes.solveRepaired exact_exactSettings
  have refused : ((suggest [(⟨"x", 0⟩, -5)]).run bounded).1.isOk = false := by decide +kernel
  have unrecorded : ((suggest [(⟨"x", 0⟩, -5)]).run bounded).2.tableau.infeasible.toList.isEmpty =
      true := by decide +kernel
  have read : (solve.run ((suggest [(⟨"x", 0⟩, -5)]).run bounded).2).1.toOption.map
      (·.value ⟨"x", 0⟩) = some (-5) := by decide +kernel
  rw [← same] at mended
  generalize ended : (suggest [(⟨"x", 0⟩, -5)]).run bounded = result at mended refused unrecorded read
  cases mended with
  | solved _ _ _ _ _ => cases refused
  | @failed s' _ _ _ _ =>
      obtain ⟨-, -, violated, returns⟩ := (failed_spec exactSettings exact_exactSettings).2 _ _ edited
        (.suggest [(⟨"x", 0⟩, -5)]) s' trivial (Step.run_bind_of_error ended)
      obtain ⟨values, s'', solved⟩ := returns fun key member => by
        have listed := Sorted.Set.mem_toList.2 member
        rw [List.isEmpty_iff.1 unrecorded] at listed
        cases listed
      rw [solved] at read
      exact ⟨_, s', edited, rfl, values, s'', solved, Option.some.inj read,
        violated values s'' solved⟩

end Solver

end SoftSimplex
