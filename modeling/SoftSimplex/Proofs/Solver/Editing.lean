import SoftSimplex.Proofs.Solver.Repairing

/-!
Solvers that are edited.

A run of commands leaves an agenda behind, which says what is registered and where the targets of stays
and edits are (`Edited`). As long as sessions only wish and no required equation is removed, the solver
serves its agenda after every command, and each batch of suggestions is answered with values that are
best for the agenda with the new targets (`Edited.suggest_optimal`).
-/

namespace SoftSimplex

open Tableau

variable {config : Config Rat} {agenda : List Entry} {x : Variable → Rat} {v : Variable} {value : Rat}
  {tag : Tag}

/-! ### Agendas that only wish -/

/-- Whatever has one of these roles on an agenda is not required. -/
def Waives (roles : Role → Prop) (agenda : List Entry) : Prop :=
  ∀ e ∈ agenda, roles e.role → e.constraint.priority ≠ .required

/-- Roles that no constraint of a caller has, and that nothing gets when targets move. -/
structure Lasting (roles : Role → Prop) : Prop where
  given : ¬roles .given
  restayed : ∀ depth x role, roles (role.restayed depth x) → roles role
  retargeted : ∀ v value role, roles (role.retargeted v value) → roles role

theorem lasting_session : Lasting fun role => role.depth? ≠ none where
  given made := made rfl
  restayed depth x role made given := made ((role.depth?_restayed depth x).trans given)
  retargeted v value role made given := made ((role.depth?_retargeted v value).trans given)

theorem lasting_edit : Lasting fun role => role.edited? ≠ none where
  given edits := edits rfl
  restayed depth x role edits none := edits ((role.edited?_restayed depth x).trans none)
  retargeted v value role edits none := edits ((role.edited?_retargeted v value).trans none)

/-- No constraint of a session is required. -/
def Lenient (agenda : List Entry) : Prop :=
  ∀ e ∈ agenda, e.role.depth? ≠ none → e.constraint.priority ≠ .required

/-- No edit is required. -/
def Pliant (agenda : List Entry) : Prop := Waives (fun role => role.edited? ≠ none) agenda

theorem Lenient.waives (lenient : Lenient agenda) : Waives (fun role => role.depth? ≠ none) agenda :=
  lenient

theorem Lenient.pliant (lenient : Lenient agenda) : Pliant agenda := fun e member edits =>
  lenient e member fun given => by
    cases role : e.role with
    | given => simp [role, Role.edited?] at edits
    | stay d v target => simp [role, Role.depth?] at given
    | edit d v target => simp [role, Role.depth?] at given

namespace Waives

variable {roles : Role → Prop}

theorem map (waives : Waives roles agenda) {f : Role → Role} (still : ∀ role, roles (f role) → roles role) :
    Waives roles (agenda.map fun e => { e with role := f e.role }) := by
  intro e member own
  obtain ⟨e₀, before, rfl⟩ := List.mem_map.1 member
  exact waives e₀ before (still e₀.role own)

theorem retargetedAll (waives : Waives roles agenda) (lasting : Lasting roles) (batch : Values Rat) :
    Waives roles (retargetedAll batch agenda) := by
  induction batch generalizing agenda with
  | nil => exact waives
  | cons entry rest ih => exact ih (waives.map (lasting.retargeted entry.1 entry.2))

end Waives

theorem Lenient.retargetedAll (lenient : Lenient agenda) (batch : Values Rat) :
    Lenient (retargetedAll batch agenda) := lenient.waives.retargetedAll lasting_session batch

/-- What is required of a pliant agenda does not depend on the targets of its edits. -/
theorem Pliant.satisfies_retargeted (pliant : Pliant agenda) (satisfies : Satisfies x (wanted agenda))
    (v : Variable) (value : Rat) : Satisfies x (wanted (retargeted v value agenda)) := by
  intro c member required
  obtain ⟨e, onAgenda, rfl⟩ := List.mem_map.1 member
  obtain ⟨e₀, before, rfl⟩ := mem_retargeted.1 onAgenda
  rw [Entry.priority_wanted] at required
  have away : e₀.role.edited? ≠ some v := fun edits =>
    pliant e₀ before (fun none => Option.some_ne_none v (edits.symm.trans none)) required
  rw [Role.retargeted_of_edited?_ne value away]
  exact satisfies _ (List.mem_map_of_mem before) ((Entry.priority_wanted e₀).trans required)

theorem Pliant.satisfies_retargetedAll (pliant : Pliant agenda)
    (satisfies : Satisfies x (wanted agenda)) (batch : Values Rat) :
    Satisfies x (wanted (retargetedAll batch agenda)) := by
  induction batch generalizing agenda with
  | nil => exact satisfies
  | cons entry rest ih =>
      exact ih (Waives.map pliant (lasting_edit.retargeted entry.1 entry.2))
        (pliant.satisfies_retargeted satisfies entry.1 entry.2)

namespace Solver

variable {s s' : Solver Rat} {c : Constraint Rat} {wishes : List (Wish Rat)} {batch : Values Rat}
  {values : Values Rat} {items : List Item}
  {session : Session Rat}

/-- What sessions registered can be taken back. -/
theorem Lenient.removable (lenient : Lenient agenda) {depth : ℕ} :
    ∀ e ∈ agenda, e.role.depth? = some depth → Removable e.constraint := fun e member at_ =>
  .inl (lenient e member (by rw [at_]; exact Option.some_ne_none depth))

section

variable {roles : Role → Prop} (lasting : Lasting roles)
include lasting

theorem Waives.takenBack (waives : Waives roles agenda) (s : Solver Rat) (tag : Tag) :
    Waives roles (s.takenBack tag agenda) := fun e member =>
  waives.map (lasting.restayed s.depth s.currentValue) e (List.mem_of_mem_filter member)

theorem Waives.closed (waives : Waives roles agenda) (s : Solver Rat)
    (constraints : List (Constraint Rat)) : Waives roles (s.closed agenda constraints) := by
  induction constraints generalizing s agenda with
  | nil => exact waives
  | cons c rest ih => exact ih (Waives.takenBack lasting waives s c.tag) _

theorem Waives.ended (waives : Waives roles agenda) (s : Solver Rat) :
    Waives roles (s.ended agenda) := by
  unfold Solver.ended
  cases s.sessions with
  | nil => exact waives
  | cons session outer => exact Waives.closed lasting waives _ _

omit lasting in
/-- Wishes that are optional put nothing required on the agenda. -/
theorem Tends.waives_enlisted (settings : config.Exact) (tends : Tends config (s.depth + 1) items s)
    (waives : Waives roles (agendaOf items))
    (optional : ∀ wish ∈ wishes, ∀ s, roles (wish.role s) → wish.Optional config)
    (ran : (fulfilAll (sessionAt s.depth items) wishes).run s = (.ok session, s')) :
    Waives roles (s.enlisted (sessionAt s.depth items) (agendaOf items) wishes) := by
  induction wishes generalizing s items with
  | nil => exact waives
  | cons wish rest ih =>
      obtain ⟨session₁, s₁, first, later⟩ := Step.run_bind_eq_ok ran
      obtain ⟨i, tends₁, aside, same, entry, -⟩ := tends.fulfilled settings first
      have depth : s₁.depth = s.tagged.depth := Tends.depth_eq aside
      change s₁.depth = s.depth at depth
      have own := optional wish List.mem_cons_self s
      rw [← depth] at tends₁ same
      rw [enlisted, first]
      dsimp only
      rw [same] at later ⊢
      rw [← entry]
      refine ih tends₁ (List.forall_mem_cons.2 ⟨fun role => ?_, waives⟩)
        (fun other member => optional other (List.mem_cons_of_mem _ member)) later
      rw [entry] at role ⊢
      exact Wish.Optional.priority (tends.config_eq.symm ▸ own role)

theorem Tends.waives_begun (settings : config.Exact) (tends : Tends config s.depth items s)
    (waives : Waives roles (agendaOf items))
    (optional : ∀ wish ∈ wishes, ∀ s, roles (wish.role s) → wish.Optional config)
    (ran : (beginEdit wishes).run s = (.ok (), s')) :
    Waives roles (s.begun wishes (agendaOf items)) := by
  obtain ⟨session, s₁, filled, -⟩ := run_beginEdit_eq_ok ran
  rw [← tends.sessionAt_depth] at filled
  have enlisted := (tends.weaken (Nat.le_succ _)).waives_enlisted settings waives optional filled
  rw [tends.sessionAt_depth] at enlisted
  exact enlisted.map (lasting.restayed _ _)

end

/-! ### Commands -/

/-- What is asked of a solver with edit sessions. -/
inductive Command where
  | add (c : Constraint Rat)
  | remove (c : Constraint Rat)
  | beginEdit (wishes : List (Wish Rat))
  | endEdit
  | suggest (batch : Values Rat)
  | suggestValue (v : Variable) (value : Rat)
  | solve

namespace Command

/-- The step of a command. -/
def step : Command → Step Rat (Solver Rat) Unit
  | add c => Solver.add c
  | remove c => Solver.remove c
  | beginEdit wishes => Solver.beginEdit wishes
  | endEdit => Solver.endEdit
  | suggest batch => do
    let _ ← Solver.suggest batch
  | suggestValue v value => Solver.suggestValue v value
  | solve => do
    let _ ← Solver.solve

/-- The agenda once a command was answered. Solving after suggestions resets the stays. -/
def next (s : Solver Rat) (agenda : List Entry) : Command → List Entry
  | add c => ⟨c, .given⟩ :: agenda
  | remove c => s.takenBack c.tag agenda
  | beginEdit wishes => s.begun wishes agenda
  | endEdit => s.ended agenda
  | suggest batch =>
    let s' := ((Solver.suggest batch).run s).2
    restayed s'.depth s'.currentValue (retargetedAll batch agenda)
  | suggestValue v value => retargeted v value agenda
  | solve =>
    let s' := (Solver.solve.run s).2
    if s.needsRepair then restayed s'.depth s'.currentValue agenda else agenda

/-- Sessions only wish, and callers remove no required equation. -/
def Gentle (config : Config Rat) (agenda : List Entry) : Command → Prop
  | add c => ∃ n, c.tag = .given n
  | remove c => (∃ n, c.tag = .given n) ∧
    ∀ e ∈ agenda, e.constraint.tag = c.tag → Removable e.constraint
  | beginEdit wishes => ∀ wish ∈ wishes, wish.Optional config
  | suggestValue _ _ => False
  | _ => True

/-- Values are suggested in batches, no edit is required, and no required equation is removed, neither by
the caller nor with the session that registered it. -/
def Restful (config : Config Rat) (s : Solver Rat) (agenda : List Entry) : Command → Prop
  | add c => ∃ n, c.tag = .given n
  | remove c => (∃ n, c.tag = .given n) ∧
    ∀ e ∈ agenda, e.constraint.tag = c.tag → Removable e.constraint
  | beginEdit wishes =>
    ∀ v asked, .edit v asked ∈ wishes → askedPriority asked config.editPriority ≠ .required
  | endEdit => ∀ e ∈ agenda, e.role.depth? = some (s.depth - 1) → Removable e.constraint
  | suggestValue _ _ => False
  | _ => True

/-- Where sessions only wish, a session that is closed removes no required equation. -/
theorem Gentle.restful {command : Command} (lenient : Lenient agenda)
    (gentle : command.Gentle config agenda) : command.Restful config s agenda := by
  cases command with
  | beginEdit wishes => exact fun v asked member => gentle _ member
  | endEdit => exact Lenient.removable lenient
  | _ => exact gentle

/-- What a command takes back loosens no dummy, and what it suggests can be satisfied. Single values are
not suggested. -/
def Spares (s : Solver Rat) (agenda : List Entry) : Command → Prop
  | add c => ∃ n, c.tag = .given n
  | remove c => (∃ n, c.tag = .given n) ∧ s.Spares c
  | endEdit => s.SparesEnding
  | suggest batch => ∃ x, Satisfies x (wanted (retargetedAll batch agenda))
  | suggestValue _ _ => False
  | _ => True

end Command

/-- A solver was reached by permitted commands that were answered, and this is its agenda. -/
inductive Edited (config : Config Rat) (permits : Solver Rat → List Entry → Command → Prop) :
    List Entry → Solver Rat → Prop where
  | created : Edited config permits [] (create config)
  | called {agenda : List Entry} {s s' : Solver Rat} (before : Edited config permits agenda s)
      (command : Command) (permitted : permits s agenda command)
      (ran : command.step.run s = (.ok (), s')) : Edited config permits (command.next s agenda) s'

/-! ### What commands keep -/

/-- Two steps of which only the state matters. -/
theorem run_of_discarded {α : Type} {y : Step Rat (Solver Rat) α}
    (ran : (do let _ ← y : Step Rat (Solver Rat) Unit).run s = (.ok (), s')) :
    ∃ a, y.run s = (.ok a, s') := by
  obtain ⟨a, s₁, first, last⟩ := Step.run_bind_eq_ok ran
  obtain ⟨-, rfl⟩ := Prod.mk.inj last
  exact ⟨a, first⟩

theorem run_of_discarded_error {α : Type} {y : Step Rat (Solver Rat) α} {fault : Fault Rat}
    (ran : (do let _ ← y : Step Rat (Solver Rat) Unit).run s = (.error fault, s')) :
    y.run s = (.error fault, s') := by
  generalize first : y.run s = ended
  obtain ⟨answer, s₁⟩ := ended
  cases answer with
  | ok a =>
      rw [Step.run_bind_of_ok first] at ran
      cases ran
  | error fault' =>
      rw [Step.run_bind_of_error first] at ran
      cases ran
      rfl

theorem serves_create (settings : config.Exact) : Serves config [] (create config) := by
  have rests := rests_create settings.tolerance
  exact ⟨⟨[], ⟨rests.toPoses, fun _ member => absurd member List.not_mem_nil,
    fun _ member => absurd member List.not_mem_nil, rfl, rfl,
    fun _ member => absurd member List.not_mem_nil, fun _ member => absurd member List.not_mem_nil,
    fun _ member => absurd member List.not_mem_nil, List.nodup_nil⟩, rfl, rests.settled⟩, rfl⟩

namespace Serves

variable (settings : config.Exact) (serves : Serves config agenda s)
include settings serves

theorem added (given : ∃ n, c.tag = .given n) (ran : (add c).run s = (.ok (), s')) :
    Serves config (⟨c, .given⟩ :: agenda) s' := by
  obtain ⟨items, tends, rfl, settled⟩ := serves.settled
  obtain ⟨items', tends', aside, agenda', sustains⟩ := tends.added settings given ran
  exact ⟨⟨items', tends', agenda', sustains.settled settled⟩, aside.needsRepair.trans serves.repaired⟩

theorem spares_of_removable (ran : (remove c).run s = (.ok (), s'))
    (removable : ∀ e ∈ agenda, e.constraint.tag = c.tag → Removable e.constraint) : s.Spares c := by
  obtain ⟨items, tends, rfl, -⟩ := serves.settled
  obtain ⟨i, member, tag⟩ := tends.exists_of_uninstall ran
  exact tends.spares_of_removable settings member tag
    (removable i.entry (List.mem_map_of_mem member) tag)

theorem removed (given : ∃ n, c.tag = .given n) (spares : s.Spares c)
    (ran : (remove c).run s = (.ok (), s')) : Serves config (s.takenBack c.tag agenda) s' := by
  obtain ⟨items, tends, rfl, settled⟩ := serves.settled
  obtain ⟨items', tends', aside, agenda', sustains⟩ := tends.removed settings given ran
  exact ⟨⟨items', tends', agenda', (sustains spares).settled settled⟩, aside.needsRepair.trans serves.repaired⟩

theorem begun (ran : (beginEdit wishes).run s = (.ok (), s')) :
    Serves config (s.begun wishes agenda) s' := by
  obtain ⟨items, tends, rfl, settled⟩ := serves.settled
  obtain ⟨items', tends', -, repair, agenda', -, sustains⟩ := tends.begun settings ran
  exact ⟨⟨items', tends', agenda', sustains.settled settled⟩, repair.trans serves.repaired⟩

theorem sparesEnding_of_removable
    (removable : ∀ e ∈ agenda, e.role.depth? = some (s.depth - 1) → Removable e.constraint)
    (ran : endEdit.run s = (.ok (), s')) : s.SparesEnding := by
  obtain ⟨items, tends, rfl, -⟩ := serves.settled
  obtain ⟨-, -, -, -, -, -, sparing⟩ := tends.ended settings ran
  exact sparing removable

theorem ended (spares : s.SparesEnding) (ran : endEdit.run s = (.ok (), s')) :
    Serves config (s.ended agenda) s' := by
  obtain ⟨items, tends, rfl, settled⟩ := serves.settled
  obtain ⟨items', tends', repaired, -, agenda', sustains, -⟩ := tends.ended settings ran
  exact ⟨⟨items', tends', agenda', (sustains spares).settled settled⟩, repaired⟩

/-- Suggestions that can be satisfied are answered with values that are best for the new targets. -/
theorem suggested (editable : ∀ entry ∈ batch, Editable agenda entry.1)
    (satisfies : Satisfies x (wanted (retargetedAll batch agenda))) :
    ∃ values s', (suggest batch).run s = (.ok values, s') ∧
      Serves config (restayed s'.depth s'.currentValue (retargetedAll batch agenda)) s' ∧
      config.Optimal (wanted (retargetedAll batch agenda)) values.value := by
  obtain ⟨s₁, ran, owes⟩ := serves.owes.run_suggest editable
  have mended := owes.solveRepaired settings
  rw [ran]
  generalize solveRepaired.run s₁ = ended at mended
  cases mended with
  | failed _ _ _ unsatisfied => exact absurd satisfies (unsatisfied x)
  | solved _ _ _ _ serves => exact ⟨_, _, rfl, serves x satisfies⟩

theorem suggest_called (satisfies : Satisfies x (wanted (retargetedAll batch agenda)))
    (ran : (Command.suggest batch).step.run s = (.ok (), s')) :
    Serves config ((Command.suggest batch).next s agenda) s' := by
  obtain ⟨values, answered⟩ := run_of_discarded ran
  have editable := serves.owes.editable_of_suggest answered fun _ _ same => by cases same
  obtain ⟨values', s₁, suggested, serves', -⟩ := serves.suggested settings editable satisfies
  rw [suggested] at answered
  obtain ⟨-, rfl⟩ := Prod.mk.inj answered
  rw [Command.next, suggested]
  exact serves'

omit settings in
theorem solve_called (ran : Command.solve.step.run s = (.ok (), s')) :
    Serves config (Command.solve.next s agenda) s' := by
  obtain ⟨values, answered⟩ := run_of_discarded ran
  obtain ⟨s₁, solved, serves'⟩ := serves.run_solve
  rw [solved] at answered
  obtain ⟨-, rfl⟩ := Prod.mk.inj answered
  rw [Command.next, serves.repaired, if_neg Bool.false_ne_true]
  exact serves'

/-- A command that gives nothing up that is required is answered by a solver that serves the agenda
then. -/
theorem called {command : Command} (spares : command.Spares s agenda)
    (ran : command.step.run s = (.ok (), s')) : Serves config (command.next s agenda) s' := by
  cases command with
  | add c => exact serves.added settings spares ran
  | remove c => exact serves.removed settings spares.1 spares.2 ran
  | beginEdit wishes => exact serves.begun settings ran
  | endEdit => exact serves.ended settings spares ran
  | suggest batch =>
      obtain ⟨x, satisfies⟩ := spares
      exact serves.suggest_called settings satisfies ran
  | suggestValue v value => exact spares.elim
  | solve => exact serves.solve_called ran

/-- Restful commands give nothing up that is required. -/
theorem spares_of_restful (pliant : Pliant agenda) {command : Command}
    (restful : command.Restful config s agenda) (ran : command.step.run s = (.ok (), s')) :
    command.Spares s agenda := by
  cases command with
  | add c => exact restful
  | remove c => exact ⟨restful.1, serves.spares_of_removable settings ran restful.2⟩
  | beginEdit wishes => trivial
  | endEdit => exact serves.sparesEnding_of_removable settings restful ran
  | suggest batch =>
      exact ⟨_, pliant.satisfies_retargetedAll (serves.optimal settings).1 batch⟩
  | suggestValue v value => exact restful
  | solve => trivial

/-- Where the wishes of sessions for some roles are optional, nothing that is required gets one of
them. -/
theorem waives_next {roles : Role → Prop} (lasting : Lasting roles) (waives : Waives roles agenda)
    {command : Command} (optional : ∀ wishes, command = .beginEdit wishes → ∀ wish ∈ wishes, ∀ s,
      roles (wish.role s) → wish.Optional config)
    (ran : command.step.run s = (.ok (), s')) : Waives roles (command.next s agenda) := by
  cases command with
  | add c => exact List.forall_mem_cons.2 ⟨fun role => absurd role lasting.given, waives⟩
  | remove c => exact Waives.takenBack lasting waives s c.tag
  | beginEdit wishes =>
      obtain ⟨items, tends, rfl, -⟩ := serves.settled
      exact tends.waives_begun lasting settings waives (optional wishes rfl) ran
  | endEdit => exact Waives.ended lasting waives s
  | suggest batch => exact (waives.retargetedAll lasting batch).map (lasting.restayed _ _)
  | suggestValue v value => exact waives.map (lasting.retargeted v value)
  | solve =>
      rw [Command.next, serves.repaired, if_neg Bool.false_ne_true]
      exact waives

/-- Gentle commands keep a solver that serves a lenient agenda. -/
theorem next (lenient : Lenient agenda) {command : Command} (gentle : command.Gentle config agenda)
    (ran : command.step.run s = (.ok (), s')) :
    Serves config (command.next s agenda) s' ∧ Lenient (command.next s agenda) := by
  refine ⟨serves.called settings
    (serves.spares_of_restful settings lenient.pliant (gentle.restful lenient) ran) ran,
    serves.waives_next settings lasting_session lenient.waives ?_ ran⟩
  rintro wishes rfl wish member s -
  exact gentle wish member

end Serves

/-- A solver that was reached by gentle commands serves its agenda. -/
theorem Edited.serves (settings : config.Exact)
    (edited : Edited config (fun _ => Command.Gentle config) agenda s) :
    Serves config agenda s ∧ Lenient agenda := by
  induction edited with
  | created => exact ⟨serves_create settings, fun _ member => absurd member List.not_mem_nil⟩
  | called before command permitted ran ih => exact ih.1.next settings ih.2 permitted ran

/-- The constraints of an agenda have tags of their own. -/
theorem Serves.nodup_tags (serves : Serves config agenda s) : ((wanted agenda).map (·.tag)).Nodup := by
  obtain ⟨items, tends, rfl, -⟩ := serves.settled
  have tags := tends.priced.family.tags
  have same : (fun c : Constraint Rat => c.tag) ∘ Entry.wanted = fun e => e.constraint.tag :=
    funext Entry.tag_wanted
  rw [wanted, List.map_map, same, agendaOf, List.map_map]
  rwa [posedOf, List.map_map] at tags

/-- A new solver that is given constraints in any order finds an optimum for them. -/
theorem exists_fresh_optimal (settings : config.Exact) {kept order : List (Constraint Rat)}
    (nodup : (kept.map (·.tag)).Nodup) (satisfies : Satisfies x kept) (perm : order.Perm kept) :
    ∃ fresh values s', (Step.forEach order add).run (create config) = (.ok (), fresh) ∧
      solve.run fresh = (.ok values, s') ∧ config.Optimal kept values.value := by
  obtain ⟨fresh, ran, reached⟩ := Reached.created.forEach_add settings
    ((perm.map _).nodup_iff.2 nodup) (fun _ _ _ member => absurd member List.not_mem_nil)
    ((satisfies_perm perm).2 satisfies) fun _ member => absurd member List.not_mem_nil
  obtain ⟨posed, stands⟩ := reached.stands settings
  rw [List.append_nil] at stands
  exact ⟨fresh, _, _, ran, stands.run_solve,
    (Config.optimal_perm (order.reverse_perm.trans perm)).1 (stands.optimal settings)⟩

/-- Every batch of suggestions for variables that can be edited is answered with values that are best for
the agenda with the new targets, as are those of a new solver that is given the constraints of that
agenda in any order. -/
theorem Edited.suggest_optimal (settings : config.Exact)
    (edited : Edited config (fun _ => Command.Gentle config) agenda s) {batch : Values Rat}
    (editable : ∀ entry ∈ batch, Editable agenda entry.1) :
    ∃ values s', (suggest batch).run s = (.ok values, s') ∧
      config.Optimal (wanted (retargetedAll batch agenda)) values.value ∧
      ∀ order, order.Perm (wanted (retargetedAll batch agenda)) → ∃ fresh other s'',
        (Step.forEach order add).run (create config) = (.ok (), fresh) ∧
          solve.run fresh = (.ok other, s'') ∧
          config.Optimal (wanted (retargetedAll batch agenda)) other.value := by
  obtain ⟨serves, lenient⟩ := edited.serves settings
  have satisfies := lenient.pliant.satisfies_retargetedAll (serves.optimal settings).1 batch
  obtain ⟨values, s', ran, serves', best⟩ := serves.suggested settings editable satisfies
  refine ⟨values, s', ran, best, fun order perm => ?_⟩
  have tags := serves'.nodup_tags
  have same : (wanted (restayed s'.depth s'.currentValue (retargetedAll batch agenda))).map (·.tag) =
      (wanted (retargetedAll batch agenda)).map (·.tag) := by
    simp [wanted, restayed, Function.comp_def]
  rw [same] at tags
  exact exists_fresh_optimal settings tags satisfies perm

/-! ### A run -/

/-- An unknown is to be two at most. -/
def atMostTwo : Constraint Rat :=
  { tag := .given 0, left := .variable ⟨"x", 0⟩, comparator := .le, right := .constant 2 }

/-- The solver that keeps an unknown below two and lets it be edited. -/
def capped : Solver Rat :=
  ((add atMostTwo >>= fun _ => beginEdit [.edit ⟨"x", 0⟩ none]).run (create exactSettings)).2

/-- An unknown that is pulled above its bound stops there. -/
theorem suggest_optimal_capped : ∃ agenda,
    Edited exactSettings (fun _ => Command.Gentle exactSettings) agenda capped ∧
    Editable agenda ⟨"x", 0⟩ ∧
    ∃ values s', (suggest [(⟨"x", 0⟩, 3)]).run capped = (.ok values, s') ∧
      values.value ⟨"x", 0⟩ = 2 ∧
      exactSettings.Optimal (wanted (retargeted ⟨"x", 0⟩ 3 agenda)) values.value := by
  obtain ⟨_, ran⟩ := Step.run_of_isOk (show ((add atMostTwo >>= fun _ =>
    beginEdit [.edit ⟨"x", 0⟩ none]).run (create exactSettings)).1.isOk = true by decide +kernel)
  obtain ⟨_, s₁, first, second⟩ := Step.run_bind_eq_ok ran
  have edited : Edited exactSettings (fun _ => Command.Gentle exactSettings) _ capped :=
    .called (.called .created (.add atMostTwo) ⟨0, rfl⟩ first) (.beginEdit [.edit ⟨"x", 0⟩ none])
      (fun wish member => by
        obtain rfl := List.mem_singleton.1 member
        exact Priority.noConfusion) second
  have editable := (edited.serves exact_exactSettings).1.owes.exists_edit?_iff.1
    (Option.isSome_iff_exists.1 (show (capped.edit? ⟨"x", 0⟩).isSome = true by decide +kernel))
  have all : ∀ entry ∈ [((⟨"x", 0⟩, 3) : Variable × Rat)], Editable _ entry.1 :=
    List.forall_mem_singleton.2 editable
  obtain ⟨values, s', suggested, best, -⟩ := Edited.suggest_optimal exact_exactSettings edited all
  have read : ((suggest [(⟨"x", 0⟩, 3)]).run capped).1.toOption.map (·.value ⟨"x", 0⟩) =
      some 2 := by decide +kernel
  rw [suggested] at read
  exact ⟨_, edited, editable, values, s', suggested, Option.some.inj read, best⟩

end Solver

end SoftSimplex
