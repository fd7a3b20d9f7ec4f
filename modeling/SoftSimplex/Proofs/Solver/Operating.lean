import SoftSimplex.Proofs.Solver.Embodying
import SoftSimplex.Proofs.Solver.Integrity
import SoftSimplex.Proofs.Solver.Interrupting

/-!
What callers do to a solver.

Callers give commands, and reset the stays on their own (`Operation`). Whatever they do, answered or failed,
leaves a coherent solver (`Performs.minds`). Every operation that is answered leaves a solver that tends what
is on the agenda then (`Tends.next`), also while suggestions are pending, so that a solver embodies its
agenda after every run (`Operated.tends`).
-/

namespace SoftSimplex

open Tableau

namespace Solver

variable {config : Config Rat} {agenda : List Entry} {items : List Item} {s s' : Solver Rat}
  {bound : ℕ} {values : Values Rat} {batch : Values Rat} {v : Variable} {value : Rat}

/-! ### Operations -/

/-- What callers do: they give commands, or reset the stays. -/
inductive Operation where
  | command (command : Command)
  | resetStays

namespace Operation

def step : Operation → Step Rat (Solver Rat) Unit
  | command given => given.step
  | resetStays => Step.modify Solver.resetStays

/-- The agenda once an operation was answered. -/
def next (s : Solver Rat) (agenda : List Entry) : Operation → List Entry
  | command given => given.next s agenda
  | resetStays => restayed s.depth s.currentValue agenda

/-- Callers add and remove constraints of their own only. -/
def Named : Operation → Prop
  | command (.add c) => ∃ n, c.tag = .given n
  | command (.remove c) => ∃ n, c.tag = .given n
  | _ => True

end Operation

/-- An operation takes no required equation back, and suggests no value for a required edit, if that is
refrained from. -/
def Operation.Heeds (restraint : Restraint) (s : Solver Rat) : Operation → Prop
  | command given => given.Heeds restraint s
  | resetStays => True

theorem Operation.heeds_free (operation : Operation) (s : Solver Rat) : operation.Heeds .free s := by
  cases operation with
  | command given => exact given.heeds_free s
  | resetStays => trivial

/-- Any number of operations under a restraint, answered or failed. -/
abbrev Performs (restraint : Restraint) : Solver Rat → Solver Rat → Prop :=
  Relation.ReflTransGen fun s s' =>
    ∃ operation : Operation, operation.Heeds restraint s ∧ (operation.step.run s).2 = s'

theorem Performs.minds {precise : Prop} {restraint : Restraint} (performs : s.Performs restraint s') :
    s.Minds precise restraint s' := by
  induction performs with
  | refl => exact refl_of _ s
  | tail _ performed ih =>
      obtain ⟨operation, heeds, rfl⟩ := performed
      refine trans_of _ ih fun coherent => ?_
      cases operation with
      | command given => exact (given.fares coherent heeds).reaches coherent
      | resetStays => exact minds_resetStays _ coherent

/-- Operations one after another, whether they answer or fail. -/
def performed (s : Solver Rat) (operations : List Operation) : Solver Rat :=
  operations.foldl (fun s operation => (operation.step.run s).2) s

theorem performs_performed (s : Solver Rat) (operations : List Operation) :
    s.Performs .free (s.performed operations) := by
  induction operations generalizing s with
  | nil => exact .refl
  | cons operation rest ih => exact .head ⟨operation, operation.heeds_free s, rfl⟩ (ih _)

/-- A solver was reached by permitted operations that were answered, and this is its agenda. -/
inductive Operated (config : Config Rat) (permits : Solver Rat → List Entry → Operation → Prop) :
    List Entry → Solver Rat → Prop where
  | created : Operated config permits [] (create config)
  | called {agenda : List Entry} {s s' : Solver Rat} (before : Operated config permits agenda s)
      (operation : Operation) (permitted : permits s agenda operation)
      (ran : operation.step.run s = (.ok (), s')) :
      Operated config permits (operation.next s agenda) s'

/-! ### Suggestions in any state -/

/-- A batch that is answered was applied, and then solved for. -/
theorem run_suggest_eq_ok (ran : (suggest batch).run s = (.ok values, s')) :
    ∃ s₁, (Step.forEach batch fun entry => suggestValue entry.1 entry.2).run s = (.ok (), s₁) ∧
      solveRepaired.run s₁ = (.ok values, s') := by
  rw [suggest, Step.run_bind_get] at ran
  cases checked : s.checkSuggestions batch with
  | error fault =>
      rw [checked, Step.run_bind_ofExcept_error] at ran
      cases ran
  | ok kept =>
      obtain rfl := checkSuggestions_eq_ok checked
      rw [checked, Step.run_bind_ofExcept_ok] at ran
      obtain ⟨_, s₁, applied, solved⟩ := Step.run_bind_eq_ok ran
      exact ⟨s₁, applied, solved⟩

theorem coherent_suggestValue (coherent : s.Coherent True .free)
    (ran : (suggestValue v value).run s = (.ok (), s')) : s'.Coherent True .free := by
  have minds := (fares_suggestValue coherent v value (absurd · Restraint.free_ne_still)).reaches
  rw [ran] at minds
  exact (minds coherent).1

namespace Tends

/-- A suggestion that is answered moves the edit of its variable. -/
theorem suggestedValue (tends : Tends config bound items s)
    (ran : (suggestValue v value).run s = (.ok (), s')) :
    ∃ items', Tends config bound items' s' ∧ s'.depth = s.depth ∧
      agendaOf items' = retargeted v value (agendaOf items) := by
  cases found : s.edit? v with
  | none =>
      rw [suggestValue, Step.run_bind_get, found] at ran
      cases ran
  | some edit =>
      obtain ⟨i, inside, d, target, role, rfl⟩ := tends.exists_of_edit? found
      obtain ⟨t', suggested, -, depth, tends'⟩ := tends.suggested inside role found value
      rw [ran] at suggested
      obtain ⟨-, rfl⟩ := Prod.mk.inj suggested
      exact ⟨_, tends', depth, agendaOf_changed _ _ _⟩

/-- Suggestions that are answered move the edits of their variables one after another. -/
theorem suggestedAll (tends : Tends config bound items s) (coherent : s.Coherent True .free)
    (ran : (Step.forEach batch fun entry => suggestValue entry.1 entry.2).run s = (.ok (), s')) :
    ∃ items', Tends config bound items' s' ∧ s'.depth = s.depth ∧ s'.Coherent True .free ∧
      agendaOf items' = retargetedAll batch (agendaOf items) := by
  induction batch generalizing s items with
  | nil =>
      obtain ⟨-, rfl⟩ := Prod.mk.inj ran
      exact ⟨items, tends, rfl, coherent, rfl⟩
  | cons entry rest ih =>
      obtain ⟨_, s₁, first, later⟩ := Step.run_bind_eq_ok
        (show (suggestValue entry.1 entry.2 >>= fun _ => Step.forEach rest fun entry =>
          suggestValue entry.1 entry.2).run s = (.ok (), s') from ran)
      obtain ⟨items₁, tends₁, depth₁, agenda₁⟩ := tends.suggestedValue first
      obtain ⟨items', tends', depth', coherent', agenda'⟩ :=
        ih tends₁ (coherent_suggestValue coherent first) later
      exact ⟨items', tends', depth'.trans depth₁, coherent',
        by rw [agenda', agenda₁, retargetedAll_cons]⟩

/-- A repair that is answered is followed by resetting the stays. -/
theorem solvedRepaired (tends : Tends config bound items s) (recorded : s.tableau.Recorded)
    (ran : solveRepaired.run s = (.ok values, s')) :
    ∃ items', Tends config bound items' s' ∧ s'.depth = s.depth ∧
      agendaOf items' = restayed s'.depth s'.currentValue (agendaOf items) := by
  obtain ⟨repaired, -, tends₁, sessions, -, rfl⟩ := tends.run_solveRepaired_eq_ok recorded ran
  have read : Tends config bound items { repaired with cached := values }.forgetInfeasible :=
    tends₁.forgetInfeasible.congr tends₁.forgetInfeasible.priced rfl rfl rfl le_rfl
  obtain ⟨amount, tends', -⟩ := read.resetStays
  have current := read.currentValue_resetStays
  refine ⟨_, tends'.congr tends'.priced rfl rfl rfl le_rfl, congrArg List.length sessions, ?_⟩
  rw [agendaOf_changed, ← current]
  rfl

variable (settings : config.Exact)
include settings

/-- Every command that is answered leaves a solver that tends what is on the agenda then. -/
theorem next_command (tends : Tends config s.depth items s) (coherent : s.Coherent True .free)
    (command : Command) (named : (Operation.command command).Named)
    (ran : command.step.run s = (.ok (), s')) :
    ∃ items', Tends config s'.depth items' s' ∧
      agendaOf items' = command.next s (agendaOf items) := by
  cases command with
  | add c =>
      obtain ⟨items', tends', -, agenda, -⟩ := tends.added settings named ran
      exact ⟨items', tends', agenda⟩
  | remove c =>
      obtain ⟨items', tends', -, agenda, -⟩ := tends.removed settings named ran
      exact ⟨items', tends', agenda⟩
  | beginEdit wishes =>
      obtain ⟨items', tends', -, -, agenda, -⟩ := tends.begun settings ran
      exact ⟨items', tends', agenda⟩
  | endEdit =>
      obtain ⟨items', tends', -, -, agenda, -⟩ := tends.ended settings ran
      exact ⟨items', tends', agenda⟩
  | suggest batch =>
      obtain ⟨values, answered⟩ := run_of_discarded ran
      obtain ⟨s₁, applied, solved⟩ := run_suggest_eq_ok answered
      obtain ⟨items₁, tends₁, depth₁, coherent₁, agenda₁⟩ := tends.suggestedAll coherent applied
      obtain ⟨items', tends', depth', agenda'⟩ :=
        tends₁.solvedRepaired coherent₁.sound.recorded solved
      refine ⟨items', (depth'.trans depth₁).symm ▸ tends', ?_⟩
      rw [agenda', agenda₁, Command.next, answered]
  | suggestValue v value =>
      obtain ⟨items', tends', depth, agenda⟩ := tends.suggestedValue ran
      exact ⟨items', depth.symm ▸ tends', agenda⟩
  | solve =>
      obtain ⟨values, answered⟩ := run_of_discarded ran
      cases repair : s.needsRepair with
      | true =>
          have solved := answered
          rw [solve, Step.run_bind_get, if_pos repair] at solved
          obtain ⟨items', tends', depth, agenda⟩ :=
            tends.solvedRepaired coherent.sound.recorded solved
          refine ⟨items', depth.symm ▸ tends', ?_⟩
          rw [agenda, Command.next, answered, if_pos repair]
      | false =>
          obtain ⟨inner, optimized, -, rfl⟩ := run_solve_eq_ok tends.toPoses repair answered
          obtain ⟨turned, -⟩ := Simplex.turns_of_optimize tends.priced.exact rfl optimized
          refine ⟨items, tends.congr (tends.priced.turned turned) rfl rfl rfl turned.nextMade.ge, ?_⟩
          rw [Command.next, repair, if_neg Bool.false_ne_true]

/-- Every operation that is answered leaves a solver that tends what is on the agenda then. -/
theorem next (tends : Tends config s.depth items s) (coherent : s.Coherent True .free)
    (operation : Operation) (named : operation.Named) (ran : operation.step.run s = (.ok (), s')) :
    ∃ items', Tends config s'.depth items' s' ∧
      agendaOf items' = operation.next s (agendaOf items) := by
  cases operation with
  | command command => exact tends.next_command settings coherent command named ran
  | resetStays =>
      obtain ⟨-, rfl⟩ := Prod.mk.inj ran
      obtain ⟨amount, tends', -⟩ := tends.resetStays
      exact ⟨_, tends', agendaOf_changed _ _ _⟩

end Tends

/-! ### Runs -/

namespace Operated

variable {permits : Solver Rat → List Entry → Operation → Prop}

/-- Operations are answered one after another. -/
theorem forEach {operations : List Operation} (operated : Operated config permits agenda s)
    (permitted : ∀ operation ∈ operations, ∀ s agenda, permits s agenda operation)
    (ran : (Step.forEach operations Operation.step).run s = (.ok (), s')) :
    ∃ agenda', Operated config permits agenda' s' := by
  refine Step.forEach_induction (P := fun s => ∃ agenda, Operated config permits agenda s)
    (fun operation member s₁ s₂ ⟨agenda₁, reached⟩ answered => ?_) ⟨agenda, operated⟩ ran
  exact ⟨_, reached.called operation (permitted operation member s₁ agenda₁) answered⟩

variable (settings : config.Exact) (operated : Operated config permits agenda s)
include settings operated

/-- Every solver that was reached is coherent. -/
theorem coherent : s.Coherent True .free := by
  induction operated with
  | created =>
      refine coherent_create settings.tolerance le_rfl fun _ => ⟨rfl, fun strength w found => ?_⟩
      obtain ⟨w', found', positive⟩ := settings.weights strength
      rw [found] at found'
      exact (Option.some.inj found' ▸ positive).le
  | called before operation permitted ran ih =>
      cases operation with
      | command command =>
          have minds := (command.fares ih (command.heeds_free _)).reaches
          rw [Operation.step] at ran
          rw [ran] at minds
          exact (minds ih).1
      | resetStays =>
          obtain ⟨-, rfl⟩ := Prod.mk.inj ran
          exact (minds_resetStays _ ih).1

/-- Every solver that was reached tends its agenda. -/
theorem tends (named : ∀ s agenda operation, permits s agenda operation → operation.Named) :
    ∃ items, Tends config s.depth items s ∧ agendaOf items = agenda := by
  induction operated with
  | created =>
      obtain ⟨items, tends, agenda, -⟩ := (serves_create settings).settled
      exact ⟨items, tends, agenda⟩
  | called before operation permitted ran ih =>
      obtain ⟨items, tends, rfl⟩ := ih
      exact tends.next settings (before.coherent settings) operation (named _ _ _ permitted) ran

end Operated

end Solver

end SoftSimplex
