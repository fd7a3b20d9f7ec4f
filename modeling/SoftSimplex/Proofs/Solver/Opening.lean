import SoftSimplex.Proofs.Solver.Editing

/-!
Sessions that are opened where the variables are.

Wishes for where the variables are ask for nothing that does not hold already, so that a poised solver
fulfils them one after another without moving (`Tends.fulfilsAll`). A solver is poised after every run that
takes nothing back that loosens a dummy, also where required edits left dummies away from zero
(`Edited.attends`). To open a session then moves nothing and is never refused (`Edited.beginEdit_spec`).
-/

namespace SoftSimplex.Solver

variable {config : Config Rat} {agenda : List Entry} {bound : Nat} {items : List Item}
  {s s' : Solver Rat} {session session' : Session Rat} {wish other : Wish Rat}
  {wishes : List (Wish Rat)}

/-! ### Wishes that can be fulfilled -/

namespace Wish

/-- The priority that a wish asks for. -/
def asked? : Wish Rat → Option Literal
  | .stay _ _ asked => asked
  | .edit _ asked => asked

/-- The priority that a wish asks for, if any, can be read. -/
def Readable (wish : Wish Rat) : Prop :=
  ∀ literal, wish.asked? = some literal → ∃ p, literal.priority? = .ok p

/-- What a wish registers is neither in the session that is being opened nor in an open one. -/
def New (session : Session Rat) (s : Solver Rat) : Wish Rat → Prop
  | .stay v _ _ => session.hasStay v = false ∧ s.hasStay v = false
  | .edit v _ => session.hasEdit v = false ∧ s.hasEdit v = false

/-- No two wishes register the same variable alike. -/
def Differs : Wish Rat → Wish Rat → Prop
  | .stay v _ _, .stay w _ _ => v ≠ w
  | .edit v _, .edit w _ => v ≠ w
  | _, _ => True

theorem New.unedited (new : wish.New session s) (v : Variable)
    (edits : (wish.role s).edited? = some v) : session.hasEdit v = false ∧ s.hasEdit v = false := by
  cases wish with
  | stay w value asked => cases edits
  | edit w asked =>
      obtain rfl := Option.some.inj edits
      exact new

/-- What one wish registers leaves room for another. -/
theorem New.granted (new : other.New session s) (differs : wish.Differs other)
    (sessions : s'.sessions = s.sessions) (m : Markers Rat) :
    other.New (s.granted session m wish) s' := by
  cases other with
  | stay w value asked =>
      have outer : s'.hasStay w = false := by
        rw [hasStay, sessions]
        exact new.2
      refine ⟨?_, outer⟩
      cases wish with
      | stay v _ _ =>
          have different : v ≠ w := differs
          have before : session.hasStay w = false := new.1
          rw [Session.hasStay] at before
          simp [Solver.granted, Session.hasStay, before, different]
      | edit v _ => exact new.1
  | edit w asked =>
      have outer : s'.hasEdit w = false := by
        rw [hasEdit, edit?, sessions]
        exact new.2
      refine ⟨?_, outer⟩
      cases wish with
      | stay v _ _ => exact new.1
      | edit v _ =>
          have different : v ≠ w := differs
          have before : session.hasEdit w = false := new.1
          rw [Session.hasEdit] at before
          simp [Solver.granted, Session.hasEdit, before, different]

end Wish

theorem run_wishedPriority (asked : Option Literal) (default : Priority) (s : Solver Rat)
    (readable : ∀ literal, asked = some literal → ∃ p, literal.priority? = .ok p) :
    (wishedPriority asked default).run s = (.ok (askedPriority asked default), s) := by
  cases asked with
  | none => rfl
  | some literal =>
      obtain ⟨p, read⟩ := readable literal rfl
      rw [wishedPriority, askedPriority, read]
      rfl

theorem run_installEquation_of_ok {left right : LinExpr Rat} {priority : Priority} {c : Constraint Rat}
    {m : Markers Rat}
    (posed : c = { tag := .made s.simplex.nextMade, left, comparator := .eq, right, priority })
    (installed : (install c).run s.tagged = (.ok m, s')) :
    (installEquation left right priority).run s = (.ok (c, m), s') := by
  have tagging : (onSimplex Simplex.freshTag).run s = (.ok (.made s.simplex.nextMade), s.tagged) := rfl
  rw [installEquation, Step.run_bind_of_ok tagging]
  dsimp only
  rw [← posed, Step.run_bind_of_ok installed]
  rfl

/-- A new wish is fulfilled if its constraint is installed. -/
theorem run_fulfil_of_ok {m : Markers Rat} (new : wish.New session s) (readable : wish.Readable)
    (installed : (install (wish.constraint s)).run s.tagged = (.ok m, s')) :
    (fulfil session wish).run s = (.ok (s.granted session m wish), s') := by
  cases wish with
  | stay v value asked =>
      have unknown : ¬(session.hasStay v || s.hasStay v) = true := by simp [new.1, new.2]
      rw [fulfil, Step.run_bind_get, if_neg unknown, Scalar.settled_rat, Step.checked_rat,
        Step.run_bind_ofExcept_ok, Step.run_bind_of_ok (run_wishedPriority asked _ s readable),
        Step.run_bind_of_ok (run_installEquation_of_ok rfl installed)]
      rfl
  | edit v asked =>
      have unknown : ¬(session.hasEdit v || s.hasEdit v) = true := by simp [new.1, new.2]
      rw [fulfil, Step.run_bind_get, if_neg unknown]
      dsimp only
      rw [Step.run_bind_of_ok (run_wishedPriority asked _ s readable),
        Step.run_bind_of_ok (run_installEquation_of_ok rfl installed)]
      rfl

/-- Wishes for where the variables are, of priorities that can be read, and for what is not registered
yet. -/
structure Fresh (s : Solver Rat) (wishes : List (Wish Rat)) : Prop where
  atCurrent : ∀ wish ∈ wishes, wish.AtCurrent
  readable : ∀ wish ∈ wishes, wish.Readable
  new : ∀ wish ∈ wishes, wish.New {} s
  apart : wishes.Pairwise Wish.Differs

theorem run_beginEdit_of_ok {s₁ : Solver Rat}
    (filled : (fulfilAll {} wishes).run s = (.ok session, s₁))
    (optimized : (onSimplex Simplex.optimize).run (s₁.opening session) = (.ok (), s')) :
    (beginEdit wishes).run s = (.ok (), s') := by
  rw [beginEdit, Step.run_bind_of_ok (Step.run_transaction_of_ok filled), Step.run_bind_modify]
  exact (Step.run_bind_of_ok optimized).trans (run_onSimplex_of_ok (Simplex.run_snapshot _ _))

/-! ### Sessions of poised solvers -/

namespace Tends

variable (settings : config.Exact)
include settings

/-- A poised solver fulfils a wish for where a variable is. -/
theorem fulfils (tends : Tends config (s.depth + 1) items s)
    (poised : s.simplex.Poised (posedOf items)) (atCurrent : wish.AtCurrent) (readable : wish.Readable)
    (new : wish.New (sessionAt s.depth items) s) :
    ∃ m s', (fulfil (sessionAt s.depth items) wish).run s =
      (.ok (s.granted (sessionAt s.depth items) m wish), s') := by
  obtain ⟨m, s', installed⟩ := tends.tagged.accepts settings (sustains_tagged s items poised).1
    (tends.joins_wish wish new.unedited).new (atCurrent.balanced s)
  exact ⟨m, s', run_fulfil_of_ok new readable installed⟩

/-- A poised solver fulfils wishes for where the variables are one after another, and moves nothing. -/
theorem fulfilsAll (tends : Tends config (s.depth + 1) items s)
    (poised : s.simplex.Poised (posedOf items)) (atCurrent : ∀ wish ∈ wishes, wish.AtCurrent)
    (readable : ∀ wish ∈ wishes, wish.Readable)
    (new : ∀ wish ∈ wishes, wish.New (sessionAt s.depth items) s)
    (apart : wishes.Pairwise Wish.Differs) :
    ∃ session s', (fulfilAll (sessionAt s.depth items) wishes).run s = (.ok session, s') ∧
      s'.currentValue = s.currentValue := by
  induction wishes generalizing s items with
  | nil => exact ⟨_, s, rfl, rfl⟩
  | cons wish rest ih =>
      have own := atCurrent wish List.mem_cons_self
      have later {other : Wish Rat} (member : other ∈ rest) : other ∈ wish :: rest :=
        List.mem_cons_of_mem _ member
      obtain ⟨m, s₁, first⟩ := tends.fulfils settings poised own (readable wish List.mem_cons_self)
        (new wish List.mem_cons_self)
      obtain ⟨i, tends₁, aside, session, -, sustains, still⟩ := tends.fulfilled settings first
      have sessions : s₁.sessions = s.sessions := aside.sessions
      have depth : s₁.depth = s.depth := congrArg List.length sessions
      rw [List.pairwise_cons] at apart
      rw [← depth] at tends₁
      obtain ⟨session', s', rests, same⟩ := ih tends₁ (sustains poised).1
        (fun other member => atCurrent other (later member))
        (fun other member => readable other (later member))
        (fun other member => by
          rw [depth, ← session]
          exact (new other (later member)).granted (apart.1 other member) sessions m)
        apart.2
      rw [depth, ← session] at rests
      exact ⟨session', s', (Step.run_bind_of_ok first).trans rests, same.trans (still poised own)⟩

/-- A poised solver opens a session for where the variables are, and moves nothing. -/
theorem opens (tends : Tends config s.depth items s) (poised : s.simplex.Poised (posedOf items))
    (fresh : s.Fresh wishes) :
    ∃ s', (beginEdit wishes).run s = (.ok (), s') ∧ s'.currentValue = s.currentValue := by
  have tends₀ := tends.weaken (Nat.le_succ _)
  have empty := tends.sessionAt_depth
  obtain ⟨session, s₁, filled, still⟩ := tends₀.fulfilsAll settings poised fresh.atCurrent
    fresh.readable (empty ▸ fresh.new) fresh.apart
  obtain ⟨items₁, tends₁, depth, -, rfl, -, sustains⟩ := tends₀.fulfilledAll settings filled
  rw [← depth] at tends₁
  obtain ⟨items₂, tends₂, -, sustains₂⟩ := tends₁.opened
  rw [depth] at sustains₂
  have opened := ((sustains.trans sustains₂) poised).1
  have current := tends₁.currentValue_opening
  rw [depth] at current
  rw [empty] at filled
  exact ⟨_, run_beginEdit_of_ok filled (run_onSimplex_of_ok opened.run_optimize), current.trans still⟩

end Tends

/-! ### Runs that loosen no dummy -/

/-- Values are suggested in batches, and nothing is taken back that loosens a dummy. -/
def Command.Careful (s : Solver Rat) (_ : List Entry) : Command → Prop
  | add c => ∃ n, c.tag = .given n
  | remove c => (∃ n, c.tag = .given n) ∧ s.Spares c
  | endEdit => s.SparesEnding
  | suggestValue _ _ => False
  | _ => True

/-- A solver tends an agenda, and is poised. -/
structure Attends (config : Config Rat) (agenda : List Entry) (s : Solver Rat) : Prop where
  poised : ∃ items, Tends config s.depth items s ∧ agendaOf items = agenda ∧
    s.simplex.Poised (posedOf items)
  repaired : s.needsRepair = false

theorem Serves.attends (serves : Serves config agenda s) : Attends config agenda s := by
  obtain ⟨items, tends, same, settled⟩ := serves.settled
  exact ⟨⟨items, tends, same, settled.poised⟩, serves.repaired⟩

/-- Where no row is negative, a solver is poised. -/
theorem Owes.attends (owes : Owes config agenda s) (upright : s.tableau.Upright)
    (repaired : s.needsRepair = false) : Attends config agenda s := by
  obtain ⟨items, tends, same⟩ := owes.tends
  have mendable := owes.mendable
  exact ⟨⟨items, tends, same, tends.priced, ⟨mendable.sheltered, mendable.insulated, upright⟩,
    mendable.optimized, mendable.tracked.only, owes.done⟩, repaired⟩

namespace Attends

variable (attends : Attends config agenda s)
include attends

theorem owes : Owes config agenda s := by
  obtain ⟨items, tends, same, poised⟩ := attends.poised
  exact ⟨⟨items, tends, same⟩, ⟨poised.steady.sheltered, poised.steady.insulated, poised.optimized,
    poised.steady.upright.tracked poised.recorded⟩, poised.done⟩

variable (settings : config.Exact)
include settings

/-- A careful command that is answered leaves a solver poised. -/
theorem next {command : Command} (careful : command.Careful s agenda)
    (ran : command.step.run s = (.ok (), s')) : Attends config (command.next s agenda) s' := by
  obtain ⟨items, tends, rfl, poised⟩ := attends.poised
  cases command with
  | add c =>
      obtain ⟨items', tends', aside, agenda', sustains⟩ := tends.added settings careful ran
      exact ⟨⟨items', tends', agenda', (sustains poised).1⟩,
        aside.needsRepair.trans attends.repaired⟩
  | remove c =>
      obtain ⟨items', tends', aside, agenda', sustains⟩ := tends.removed settings careful.1 ran
      exact ⟨⟨items', tends', agenda', (sustains careful.2 poised).1⟩,
        aside.needsRepair.trans attends.repaired⟩
  | beginEdit wishes =>
      obtain ⟨items', tends', -, repair, agenda', -, sustains⟩ := tends.begun settings ran
      exact ⟨⟨items', tends', agenda', (sustains poised).1⟩, repair.trans attends.repaired⟩
  | endEdit =>
      obtain ⟨items', tends', repaired, -, agenda', sustains, -⟩ := tends.ended settings ran
      exact ⟨⟨items', tends', agenda', (sustains careful poised).1⟩, repaired⟩
  | suggest batch =>
      obtain ⟨values, answered⟩ := run_of_discarded ran
      have editable := attends.owes.editable_of_suggest answered fun _ _ same => by cases same
      obtain ⟨s₁, same, owes⟩ := attends.owes.run_suggest editable
      have mended := owes.solveRepaired settings
      rw [Command.next, answered]
      rw [← same, answered] at mended
      cases mended with
      | solved owes' upright repaired _ _ => exact owes'.attends upright repaired
  | suggestValue v value => exact careful.elim
  | solve =>
      obtain ⟨values, answered⟩ := run_of_discarded ran
      rw [tends.toPoses.run_solve poised.done attends.repaired] at answered
      obtain ⟨-, rfl⟩ := Prod.mk.inj answered
      rw [Command.next, attends.repaired, if_neg Bool.false_ne_true]
      exact ⟨⟨items, tends.congr tends.priced rfl rfl rfl le_rfl, rfl, poised⟩, rfl⟩

end Attends

/-- A solver that was reached by careful commands is poised. -/
theorem Edited.attends (settings : config.Exact)
    (edited : Edited config Command.Careful agenda s) : Attends config agenda s := by
  induction edited with
  | created => exact (serves_create settings).attends
  | called before command careful ran ih => exact ih.next settings careful ran

/-- After a run that takes nothing back that loosens a dummy, a session whose wishes are for where the
variables are is opened, and no variable moves. -/
theorem Edited.beginEdit_spec (settings : config.Exact)
    (edited : Edited config Command.Careful agenda s) (fresh : s.Fresh wishes) :
    ∃ s', (beginEdit wishes).run s = (.ok (), s') ∧ s'.currentValue = s.currentValue := by
  obtain ⟨items, tends, -, poised⟩ := (edited.attends settings).poised
  exact tends.opens settings poised fresh

/-! ### An equation that was stated twice -/

/-- Adding constraints of callers one after another is a careful run. -/
theorem Edited.forEach_add {constraints : List (Constraint Rat)}
    (edited : Edited config Command.Careful agenda s)
    (given : ∀ c ∈ constraints, ∃ n, c.tag = .given n)
    (ran : (Step.forEach constraints add).run s = (.ok (), s')) :
    ∃ agenda', Edited config Command.Careful agenda' s' := by
  induction constraints generalizing agenda s with
  | nil =>
      obtain ⟨-, rfl⟩ := Prod.mk.inj ran
      exact ⟨agenda, edited⟩
  | cons c rest ih =>
      obtain ⟨_, s₁, first, later⟩ := Step.run_bind_eq_ok
        (show (add c >>= fun _ => Step.forEach rest add).run s = (.ok (), s') from ran)
      exact ih (edited.called (.add c) (given c List.mem_cons_self) first)
        (fun d member => given d (List.mem_cons_of_mem _ member)) later

/-- One unknown is to be minus one. -/
def isMinusOne (tag : Nat) : Constraint Rat where
  tag := .given tag
  left := .variable ⟨"y", 1⟩
  comparator := .eq
  right := .constant (-1)

/-- Both unknowns together are to be minus one at least. -/
def sumAtLeastMinusOne : Constraint Rat where
  tag := .given 2
  left := .add (.variable ⟨"x", 0⟩) (.variable ⟨"y", 1⟩)
  comparator := .ge
  right := .constant (-1)

/-- The one unknown is wanted not to pass the other. -/
def wishesBelow : Constraint Rat where
  tag := .given 4
  left := .variable ⟨"x", 0⟩
  comparator := .le
  right := .variable ⟨"y", 1⟩
  priority := .medium

/-- The solver that is given an equation twice, between inequalities. -/
def repeated : Solver Rat :=
  ((Step.forEach [atLeastOne, isMinusOne 1, sumAtLeastMinusOne, isMinusOne 3, wishesBelow] add).run
    (create exactSettings)).2

/-- An unknown must stay where it is. -/
def staysPut : List (Wish Rat) := [.stay ⟨"x", 0⟩ none (some (.priority .required))]

theorem fresh_staysPut (sessions : s.sessions = []) : s.Fresh staysPut where
  atCurrent := List.forall_mem_singleton.2 rfl
  readable := List.forall_mem_singleton.2 fun literal same => ⟨.required, by cases same; rfl⟩
  new := List.forall_mem_singleton.2 ⟨rfl, by rw [hasStay, sessions]; rfl⟩
  apart := List.pairwise_singleton _ _

/-- A bound can be taken back and the unknown be told to stay. But if the equation was taken back once
before, which loosens the dummy of the other, then the unknown cannot be told to stay where it is. -/
theorem beginEdit_spec_repeated : ∃ agenda s s',
    (remove atLeastOne).run repeated = (.ok (), s) ∧
    Edited exactSettings Command.Careful agenda s ∧ s.Fresh staysPut ∧
    (beginEdit staysPut).run s = (.ok (), s') ∧ s'.currentValue = s.currentValue ∧
    ∃ s₁ s₂ s₃, (remove (isMinusOne 3)).run repeated = (.ok (), s₁) ∧
      (remove atLeastOne).run s₁ = (.ok (), s₂) ∧ s₂.Fresh staysPut ∧
      (beginEdit staysPut).run s₂ = (.error .infeasible, s₃) := by
  obtain ⟨answers, bounded, unbound, loosens, frees, sessions, infeasible⟩ :
      ((Step.forEach [atLeastOne, isMinusOne 1, sumAtLeastMinusOne, isMinusOne 3, wishesBelow] add).run
        (create exactSettings)).1.isOk = true ∧
      (repeated.installed.get? (.given 0)).map (·.markers.main.isDummy) = some false ∧
      ((remove atLeastOne).run repeated).1.isOk = true ∧
      ((remove (isMinusOne 3)).run repeated).1.isOk = true ∧
      ((remove atLeastOne).run ((remove (isMinusOne 3)).run repeated).2).1.isOk = true ∧
      (((remove atLeastOne).run repeated).2.sessions.length = 0 ∧
        ((remove atLeastOne).run ((remove (isMinusOne 3)).run repeated).2).2.sessions.length = 0) ∧
      (match ((beginEdit staysPut).run
          ((remove atLeastOne).run ((remove (isMinusOne 3)).run repeated).2).2).1 with
        | .error .infeasible => true
        | _ => false) = true := by
    decide +kernel
  obtain ⟨_, added⟩ := Step.run_of_isOk answers
  obtain ⟨_, removed⟩ := Step.run_of_isOk unbound
  obtain ⟨_, loosened⟩ := Step.run_of_isOk loosens
  obtain ⟨_, freed⟩ := Step.run_of_isOk frees
  have start : Edited exactSettings Command.Careful [] (create exactSettings) := .created
  obtain ⟨agenda, edited⟩ := start.forEach_add
    (fun c member => by
      simp only [List.mem_cons, List.not_mem_nil, or_false] at member
      rcases member with rfl | rfl | rfl | rfl | rfl <;> exact ⟨_, rfl⟩) added
  have spares : repeated.Spares atLeastOne := fun known found dummy => by
    rw [show atLeastOne.tag = .given 0 from rfl] at found
    rw [found, Option.map_some, dummy] at bounded
    cases bounded
  have careful := edited.called (.remove atLeastOne) ⟨⟨0, rfl⟩, spares⟩ removed
  have fresh := fresh_staysPut (List.length_eq_zero_iff.1 sessions.1)
  obtain ⟨s', opened, still⟩ := Edited.beginEdit_spec exact_exactSettings careful fresh
  refine ⟨_, _, s', removed, careful, fresh, opened, still, _, _, _, loosened, freed,
    fresh_staysPut (List.length_eq_zero_iff.1 sessions.2), Prod.ext ?_ rfl⟩
  split at infeasible
  · assumption
  · cases infeasible

end SoftSimplex.Solver
