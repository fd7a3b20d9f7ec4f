import SoftSimplex.Proofs.Solver.Registering

/-!
Sessions that are opened and closed.

Every wish that is fulfilled joins the agenda in the session that is being opened (`Tends.fulfilled`), and
opening the session resets all stays (`Tends.begun`). Closing a session takes its constraints off the
agenda one after another, and resets the stays of the outer sessions before each (`Tends.ended`).
-/

namespace SoftSimplex

open Tableau

namespace Solver

variable {config : Config Rat} {bound : Nat} {items : List Item} {i : Item} {s s' : Solver Rat}
  {c : Constraint Rat} {agenda : List Entry} {session session' : Session Rat} {wish : Wish Rat}
  {wishes : List (Wish Rat)}

/-! ### Wishes -/

/-- The priority that a wish is fulfilled with, where it can be told. -/
def askedPriority (asked : Option Literal) (default : Priority) : Priority :=
  match asked with
  | none => default
  | some literal =>
    match literal.priority? with
    | .ok p => p
    | .error _ => default

namespace Wish

/-- The constraint by which a solver fulfils a wish. -/
def constraint (s : Solver Rat) : Wish Rat → Constraint Rat
  | .stay v value asked =>
    { tag := .made s.simplex.nextMade
      left := .variable v
      comparator := .eq
      right := .constant (value.getD (s.currentValue v))
      priority := askedPriority asked s.config.stayPriority }
  | .edit v asked =>
    { tag := .made s.simplex.nextMade
      left := .add (LinExpr.neg (.variable v)) (.constant (s.currentValue v))
      comparator := .eq
      right := .constant 0
      priority := askedPriority asked s.config.editPriority }

/-- What the constraint of a wish is there for: a variable is held at the value that was asked for, or
where it is, or edited from where it is. -/
def role (s : Solver Rat) : Wish Rat → Role
  | .stay v value _ => .stay s.depth v (value.getD (s.currentValue v))
  | .edit v _ => .edit s.depth v (s.currentValue v)

/-- The entry by which a solver fulfils a wish. -/
def entry (s : Solver Rat) (wish : Wish Rat) : Entry := ⟨wish.constraint s, wish.role s⟩

/-- A wish does not have to be fulfilled exactly. -/
def Optional (config : Config Rat) : Wish Rat → Prop
  | .stay _ _ asked => askedPriority asked config.stayPriority ≠ .required
  | .edit _ asked => askedPriority asked config.editPriority ≠ .required

/-- A wish is for where its variable is. -/
def AtCurrent : Wish Rat → Prop
  | .stay _ value _ => value = none
  | .edit _ _ => True

/-- The equation of such a wish holds as it is. -/
theorem AtCurrent.balanced (atCurrent : wish.AtCurrent) (s : Solver Rat) :
    (wish.constraint s).left.eval s.currentValue = (wish.constraint s).right.eval s.currentValue := by
  cases wish with
  | stay v value asked =>
      obtain rfl : value = none := atCurrent
      rfl
  | edit v asked => simp [constraint, LinExpr.eval, LinExpr.neg]

theorem tag_constraint (wish : Wish Rat) (s : Solver Rat) :
    (wish.constraint s).tag = .made s.simplex.nextMade := by
  cases wish <;> rfl

theorem depth?_role (wish : Wish Rat) (s : Solver Rat) : (wish.role s).depth? = some s.depth := by
  cases wish <;> rfl

theorem Optional.priority (optional : wish.Optional s.config) :
    (wish.constraint s).priority ≠ .required := by
  cases wish <;> exact optional

/-- The equation of a wish asks for what its entry wants. -/
theorem sound (wish : Wish Rat) (s : Solver Rat) (m : Markers Rat) :
    Item.Sound ⟨⟨⟨wish.constraint s, m⟩, 0⟩, wish.role s⟩ := by
  cases wish with
  | stay v value asked =>
      refine ⟨rfl, fun x => ?_⟩
      simp [Posed.gap, constraint, LinExpr.eval, Row.residualSign]
  | edit v asked =>
      refine ⟨rfl, fun x => ?_⟩
      simp only [Posed.gap, constraint, LinExpr.eval, LinExpr.neg, Row.residualSign]
      ring

end Wish

/-- The solver that has used up a tag. -/
def tagged (s : Solver Rat) : Solver Rat :=
  s.withSimplex { s.simplex with nextMade := s.simplex.nextMade + 1 }

/-- The session in which a wish was fulfilled. -/
def granted (s : Solver Rat) (session : Session Rat) (m : Markers Rat) (wish : Wish Rat) :
    Session Rat :=
  match wish with
  | .stay v _ _ => { session with stays := session.stays ++ [(v, ⟨wish.constraint s, m⟩)] }
  | .edit v _ =>
    { session with
      edits := session.edits ++ [(v, ⟨wish.constraint s, m, s.currentValue v⟩)] }

theorem run_wishedPriority_eq_ok {asked : Option Literal} {default p : Priority}
    (ran : (wishedPriority asked default).run s = (.ok p, s')) :
    p = askedPriority asked default ∧ s' = s := by
  unfold wishedPriority at ran
  unfold askedPriority
  cases asked with
  | none =>
      obtain ⟨same, rfl⟩ := Prod.mk.inj ran
      exact ⟨(Except.ok.inj same).symm, rfl⟩
  | some literal =>
      dsimp only at ran ⊢
      cases found : literal.priority? with
      | ok q =>
          rw [found] at ran
          obtain ⟨same, rfl⟩ := Prod.mk.inj ran
          exact ⟨(Except.ok.inj same).symm, rfl⟩
      | error fault =>
          rw [found] at ran
          cases ran

theorem run_installEquation_eq_ok {left right : LinExpr Rat} {priority : Priority}
    {answer : Constraint Rat × Markers Rat}
    (ran : (installEquation left right priority).run s = (.ok answer, s')) :
    answer.1 = { tag := .made s.simplex.nextMade, left, comparator := .eq, right, priority } ∧
      (install answer.1).run s.tagged = (.ok answer.2, s') := by
  obtain ⟨tag, s₁, first, rest⟩ := Step.run_bind_eq_ok ran
  obtain ⟨same, rfl⟩ := Prod.mk.inj first
  obtain ⟨m, s₂, installed, last⟩ := Step.run_bind_eq_ok rest
  obtain ⟨answered, rfl⟩ := Prod.mk.inj last
  obtain rfl := Except.ok.inj answered
  obtain rfl := Except.ok.inj same
  exact ⟨rfl, installed⟩

/-- A wish is fulfilled by installing its constraint, if its variable is not edited already. -/
theorem run_fulfil_eq_ok (ran : (fulfil session wish).run s = (.ok session', s')) :
    ∃ m, (install (wish.constraint s)).run s.tagged = (.ok m, s') ∧
      session' = s.granted session m wish ∧
      ∀ v, (wish.role s).edited? = some v → session.hasEdit v = false ∧ s.hasEdit v = false := by
  cases wish with
  | stay v value asked =>
      rw [fulfil, Step.run_bind_get] at ran
      split at ran
      · cases ran
      · rw [Scalar.settled_rat, Step.checked_rat, Step.run_bind_ofExcept_ok] at ran
        obtain ⟨p, s₁, first, rest⟩ := Step.run_bind_eq_ok ran
        obtain ⟨rfl, rfl⟩ := run_wishedPriority_eq_ok first
        obtain ⟨⟨c, m⟩, s₂, installed, last⟩ := Step.run_bind_eq_ok rest
        obtain ⟨rfl, installed⟩ := run_installEquation_eq_ok installed
        obtain ⟨answered, rfl⟩ := Prod.mk.inj last
        exact ⟨m, installed, (Except.ok.inj answered).symm, fun w own => by cases own⟩
  | edit v asked =>
      rw [fulfil, Step.run_bind_get] at ran
      split at ran
      · cases ran
      · next new =>
          obtain ⟨p, s₁, first, rest⟩ := Step.run_bind_eq_ok ran
          obtain ⟨rfl, rfl⟩ := run_wishedPriority_eq_ok first
          obtain ⟨⟨c, m⟩, s₂, installed, last⟩ := Step.run_bind_eq_ok rest
          obtain ⟨rfl, installed⟩ := run_installEquation_eq_ok installed
          obtain ⟨answered, rfl⟩ := Prod.mk.inj last
          refine ⟨m, installed, (Except.ok.inj answered).symm, fun w own => ?_⟩
          cases own
          simpa using new

/-! ### Sessions that are opened -/

/-- The agenda once the wishes of a session were fulfilled one after another. -/
def enlisted (s : Solver Rat) (session : Session Rat) (agenda : List Entry) :
    List (Wish Rat) → List Entry
  | [] => agenda
  | wish :: rest =>
    match (fulfil session wish).run s with
    | (.ok session', s') => enlisted s' session' (wish.entry s :: agenda) rest
    | (.error _, _) => agenda

/-- The solver in which a session was opened, and all stays were reset. -/
def opening (s : Solver Rat) (session : Session Rat) : Solver Rat :=
  ({ s with sessions := session :: s.sessions } : Solver Rat).forgetInfeasible.resetStays

/-- The agenda once a session was opened: the stays of all sessions are reset. -/
def begun (s : Solver Rat) (wishes : List (Wish Rat)) (agenda : List Entry) : List Entry :=
  restayed (s.depth + 1) ((fulfilAll {} wishes).run s).2.currentValue (s.enlisted {} agenda wishes)

/-- Nothing is recorded in the solver in which a session is opened. -/
theorem unrecorded_opening (s : Solver Rat) (session : Session Rat) (key : Column) :
    key ∉ (s.opening session).tableau.infeasible := by
  have empty : (s.opening session).tableau.infeasible = ∅ := infeasible_zeroed _ _
  rw [empty]
  exact Sorted.Set.not_mem_empty key

/-- A session is opened once all its wishes were fulfilled. -/
theorem run_beginEdit_eq_ok (ran : (beginEdit wishes).run s = (.ok (), s')) :
    ∃ session s₁, (fulfilAll {} wishes).run s = (.ok session, s₁) ∧
      (onSimplex Simplex.optimize).run (s₁.opening session) = (.ok (), s') := by
  obtain ⟨session, s₁, first, rest⟩ := Step.run_bind_eq_ok ran
  rw [Step.run_bind_modify] at rest
  obtain ⟨_, s₂, optimizing, last⟩ := Step.run_bind_eq_ok rest
  rw [run_onSimplex_of_ok (Simplex.run_snapshot _ _)] at last
  obtain ⟨-, rfl⟩ := Prod.mk.inj last
  exact ⟨session, s₁, Step.run_transaction_eq_ok first, optimizing⟩

/-- A session with one wish puts its entry on the agenda, and resets the stays. -/
theorem begun_singleton (ran : (beginEdit [wish]).run s = (.ok (), s')) (agenda : List Entry) :
    ∃ x, s.begun [wish] agenda = restayed (s.depth + 1) x (wish.entry s :: agenda) := by
  obtain ⟨session, s₁, filled, -⟩ := run_beginEdit_eq_ok ran
  obtain ⟨session₁, s₂, first, -⟩ := Step.run_bind_eq_ok filled
  exact ⟨_, by rw [begun, enlisted, first]; rfl⟩

namespace Tends

theorem tagged (tends : Tends config bound items s) : Tends config bound items s.tagged := by
  obtain ⟨k, carries⟩ := tends.priced.carries
  have priced : s.tagged.simplex.Priced (posedOf items) :=
    ⟨⟨k, carries.represents, carries.family, carries.fresh, carries.below⟩, tends.priced.registered⟩
  exact tends.congr priced rfl rfl rfl (Nat.le_succ _)

theorem sustains_tagged (s : Solver Rat) (items : List Item) :
    s.simplex.Sustains (posedOf items) s.tagged.simplex (posedOf items) := fun poised => by
  obtain ⟨k, carries⟩ := poised.carries
  exact ⟨⟨⟨⟨k, carries.represents, carries.family, carries.fresh, carries.below⟩, poised.registered⟩,
    poised.steady, poised.optimized, poised.recorded, poised.done⟩, id⟩

/-- What is not edited in a session or in the open ones is edited by no item. -/
theorem edited_ne {v : Variable} (tends : Tends config (s.depth + 1) items s)
    (unlisted : (sessionAt s.depth items).hasEdit v = false) (notOpen : s.hasEdit v = false)
    (member : i ∈ items) : i.role.edited? ≠ some v := by
  intro own
  cases role : i.role with
  | given =>
      rw [role] at own
      cases own
  | stay d w target =>
      rw [role] at own
      cases own
  | edit d w target =>
      rw [role] at own
      cases own
      have listed : (sessionAt d items).hasEdit v = true :=
        List.any_eq_true.2 ⟨(v, ⟨i.constraint, i.markers, target⟩),
          mem_edits.2 ⟨i, member, target, role, rfl⟩, by simp⟩
      rcases Nat.lt_succ_iff_lt_or_eq.1 (tends.within i member d (by rw [role]; rfl)) with
        below | rfl
      · have present : (s.edit? v).isSome := by
          rw [edit?, List.findSome?_isSome_iff]
          refine ⟨_, tends.sessions ▸ mem_sessionsOf.2 ⟨d, below, rfl⟩, ?_⟩
          rw [Session.edit?, Option.isSome_map, List.find?_isSome]
          exact List.any_eq_true.1 listed
        rw [hasEdit, present] at notOpen
        cases notOpen
      · rw [listed] at unlisted
        cases unlisted

variable (settings : config.Exact)
include settings

omit settings in
/-- The constraint of a wish can join the session that is being opened. -/
theorem joins_wish (tends : Tends config (s.depth + 1) items s) (wish : Wish Rat)
    (unedited : ∀ v, (wish.role s).edited? = some v →
      (sessionAt s.depth items).hasEdit v = false ∧ s.hasEdit v = false) :
    s.tagged.Joins (s.depth + 1) items (wish.constraint s) (wish.role s) where
  new i member same := by
    rw [wish.tag_constraint] at same
    cases at_ : i.role.depth? with
    | none =>
        obtain ⟨n, given⟩ := tends.given i member at_
        rw [given] at same
        cases same
    | some d =>
        obtain ⟨n, made, below⟩ := tends.made i member (by rw [at_]; exact Option.some_ne_none d)
        rw [made] at same
        cases same
        exact lt_irrefl _ below
  sound := wish.sound s
  within d at_ := by
    rw [wish.depth?_role] at at_
    cases at_
    exact ⟨le_rfl, Nat.lt_succ_self _⟩
  given away := by
    rw [wish.depth?_role] at away
    cases away
  made _ := ⟨_, wish.tag_constraint s, Nat.lt_succ_self _⟩
  edits v own i member := tends.edited_ne (unedited v own).1 (unedited v own).2 member

/-- A wish that is fulfilled joins the agenda, and moves nothing if it is for where its variable is. -/
theorem fulfilled (tends : Tends config (s.depth + 1) items s)
    (ran : (fulfil (sessionAt s.depth items) wish).run s = (.ok session', s')) :
    ∃ i, Tends config (s.depth + 1) (i :: items) s' ∧ s.tagged.Aside s' ∧
      session' = sessionAt s.depth (i :: items) ∧ i.entry = wish.entry s ∧
      s.simplex.Sustains (posedOf items) s'.simplex (posedOf (i :: items)) ∧
      (s.simplex.Poised (posedOf items) → wish.AtCurrent → s'.currentValue = s.currentValue) := by
  obtain ⟨m, installed, session, unedited⟩ := run_fulfil_eq_ok ran
  obtain ⟨tends', aside, sustains, still⟩ :=
    tends.tagged.joined settings (tends.joins_wish wish unedited) installed
  have tagged := sustains_tagged s items
  refine ⟨⟨⟨⟨wish.constraint s, m⟩, 0⟩, wish.role s⟩, tends', aside, ?_, rfl, tagged.trans sustains,
    fun poised atCurrent => still (tagged poised).1 (atCurrent.balanced s)⟩
  rw [session, sessionAt_cons]
  cases wish with
  | stay v value asked => simp [granted, Item.stay?, Item.edit?, Wish.role]
  | edit v asked => simp [granted, Item.stay?, Item.edit?, Wish.role]

/-- Wishes that are fulfilled join the agenda one after another. -/
theorem fulfilledAll (tends : Tends config (s.depth + 1) items s)
    (ran : (fulfilAll (sessionAt s.depth items) wishes).run s = (.ok session', s')) :
    ∃ items', Tends config (s.depth + 1) items' s' ∧ s'.depth = s.depth ∧
      s'.needsRepair = s.needsRepair ∧ session' = sessionAt s.depth items' ∧
      agendaOf items' = s.enlisted (sessionAt s.depth items) (agendaOf items) wishes ∧
      s.simplex.Sustains (posedOf items) s'.simplex (posedOf items') := by
  induction wishes generalizing s items with
  | nil =>
      obtain ⟨answered, rfl⟩ := Prod.mk.inj ran
      exact ⟨items, tends, rfl, rfl, (Except.ok.inj answered).symm, rfl, .refl _ _⟩
  | cons wish rest ih =>
      obtain ⟨session₁, s₁, first, later⟩ := Step.run_bind_eq_ok ran
      obtain ⟨i, tends₁, aside, session, entry, sustains, -⟩ := tends.fulfilled settings first
      have depth : s₁.depth = s.tagged.depth := depth_eq aside
      change s₁.depth = s.depth at depth
      rw [← depth] at tends₁
      rw [session, ← depth] at later
      obtain ⟨items', tends', depth', repair', session', agenda, sustains'⟩ := ih tends₁ later
      rw [depth] at tends' depth' session' agenda
      refine ⟨items', tends', depth', repair'.trans aside.needsRepair, session', ?_,
        sustains.trans sustains'⟩
      rw [agenda, enlisted, first, session, agendaOf, List.map_cons, entry]
      rfl

omit settings in
/-- Forgetting what awaits repair keeps an agenda. -/
theorem forgetInfeasible (tends : Tends config bound items s) :
    Tends config bound items s.forgetInfeasible :=
  tends.congr (tends.priced.awaiting ∅) rfl rfl rfl le_rfl

omit settings in
theorem sustains_forgetInfeasible (s : Solver Rat) (items : List Item) :
    s.simplex.Sustains (posedOf items) s.forgetInfeasible.simplex (posedOf items) := fun poised =>
  ⟨{ toPriced := poised.toPriced.awaiting ∅
     steady := poised.steady.of_rows fun _ _ _ found => found
     optimized := poised.optimized
     recorded := fun key member => absurd member (Sorted.Set.not_mem_empty key)
     done := poised.done }, fun shaped => shaped.of_rows fun _ _ _ found => found⟩

omit settings in
/-- The session that was filled is put in front of the open ones. -/
theorem pushed (tends : Tends config (s.depth + 1) items s) : Tends config (s.depth + 1) items
    { s with sessions := sessionAt s.depth items :: s.sessions } := by
  refine ⟨⟨tends.priced, tends.installed⟩, tends.sound, tends.weights, tends.config_eq, ?_,
    tends.within, tends.given, tends.made, tends.edits⟩
  change sessionAt s.depth items :: s.sessions = sessionsOf (s.depth + 1) items
  rw [sessionsOf, ← tends.sessions]

omit settings in
/-- When a session that was filled is open, all stays are reset. -/
theorem opened (tends : Tends config (s.depth + 1) items s) :
    ∃ items', Tends config (s.depth + 1) items' (s.opening (sessionAt s.depth items)) ∧
      agendaOf items' = restayed (s.depth + 1) s.currentValue (agendaOf items) ∧
      s.simplex.Sustains (posedOf items) (s.opening (sessionAt s.depth items)).simplex
        (posedOf items') := by
  obtain ⟨amount, tends', sustains⟩ := tends.pushed.forgetInfeasible.resetStays
  exact ⟨_, tends', agendaOf_changed _ _ _, (sustains_forgetInfeasible s items).trans sustains⟩

omit settings in
theorem currentValue_opening (tends : Tends config (s.depth + 1) items s) :
    (s.opening (sessionAt s.depth items)).currentValue = s.currentValue :=
  tends.pushed.forgetInfeasible.currentValue_resetStays

omit settings in
theorem weaken {bound' : Nat} (tends : Tends config bound items s) (le : bound ≤ bound') :
    Tends config bound' items s :=
  { tends with within := fun i member d at_ => (tends.within i member d at_).trans_le le }

omit settings in
/-- A session that is about to be opened is empty. -/
theorem sessionAt_depth (tends : Tends config s.depth items s) : sessionAt s.depth items = {} := by
  have away : ∀ i ∈ items, i.role.depth? ≠ some s.depth := fun i member at_ =>
    lt_irrefl _ (tends.within i member s.depth at_)
  have nothing : sessionAt s.depth (items.filter fun _ => false) = sessionAt s.depth items :=
    sessionAt_filter fun i member _ => away i member
  rw [← nothing, List.filter_false]
  rfl

/-- Opening a session puts its wishes on the agenda, and resets all stays. -/
theorem begun (tends : Tends config s.depth items s)
    (ran : (beginEdit wishes).run s = (.ok (), s')) :
    ∃ items', Tends config s'.depth items' s' ∧ s'.depth = s.depth + 1 ∧
      s'.needsRepair = s.needsRepair ∧ agendaOf items' = s.begun wishes (agendaOf items) ∧
      s'.tableau.Recorded ∧ s.simplex.Sustains (posedOf items) s'.simplex (posedOf items') := by
  have empty := tends.sessionAt_depth
  obtain ⟨session, s₁, filled, optimizing⟩ := run_beginEdit_eq_ok ran
  rw [← empty] at filled
  obtain ⟨items₁, tends₁, depth, repair, rfl, agenda, sustains⟩ :=
    (tends.weaken (Nat.le_succ _)).fulfilledAll settings filled
  rw [← depth] at tends₁
  obtain ⟨items₂, tends₂, agenda₂, sustains₂⟩ := tends₁.opened
  rw [← depth] at optimizing
  obtain ⟨inner, rfl, tends₃, records, still⟩ := tends₂.optimized optimizing
  have unrecorded : (s₁.opening (sessionAt s₁.depth items₁)).tableau.Recorded := fun key member =>
    absurd member (unrecorded_opening _ _ key)
  refine ⟨items₂, tends₃, congrArg (· + 1) depth, repair, ?_, records unrecorded, fun poised => ?_⟩
  · rw [agenda₂, agenda, Solver.begun, ← empty, filled, depth]
  · have opened := (sustains.trans sustains₂) poised
    rw [still opened.1.done]
    exact opened

end Tends

/-! ### Sessions that are closed -/

/-- The agenda once constraints were taken back one after another. -/
def closed (s : Solver Rat) (agenda : List Entry) : List (Constraint Rat) → List Entry
  | [] => agenda
  | c :: rest => ((uninstall c).run s).2.closed (s.takenBack c.tag agenda) rest

/-- The solver without the innermost session. -/
def popped (s : Solver Rat) : Solver Rat := { s with sessions := s.sessions.tail }

/-- Taking constraints back one after another loosens no dummy. -/
def SparesAll (s : Solver Rat) : List (Constraint Rat) → Prop
  | [] => True
  | c :: rest => s.Spares c ∧ ((uninstall c).run s).2.SparesAll rest

/-- Closing the innermost session loosens no dummy. -/
def SparesEnding (s : Solver Rat) : Prop :=
  match s.sessions with
  | [] => True
  | session :: _ => s.popped.SparesAll session.constraints

/-- The agenda once the innermost session was closed. -/
def ended (s : Solver Rat) (agenda : List Entry) : List Entry :=
  match s.sessions with
  | [] => agenda
  | session :: _ => s.popped.closed agenda session.constraints

theorem mem_takenBack {tag : Tag} {e : Entry} : e ∈ s.takenBack tag agenda ↔
    (∃ e₀ ∈ agenda, { e₀ with role := e₀.role.restayed s.depth s.currentValue } = e) ∧
      e.constraint.tag ≠ tag := by
  rw [takenBack, List.mem_filter, restayed, List.mem_map, decide_eq_true_iff]

/-- What is left was there before, in the same session. -/
theorem exists_of_mem_takenBack {tag : Tag} {e : Entry} (left : e ∈ s.takenBack tag agenda) :
    ∃ e₀ ∈ agenda, e₀.constraint = e.constraint ∧ e₀.role.depth? = e.role.depth? ∧
      e.constraint.tag ≠ tag := by
  obtain ⟨⟨e₀, inside, rfl⟩, different⟩ := mem_takenBack.1 left
  exact ⟨e₀, inside, rfl, (e₀.role.depth?_restayed _ _).symm, different⟩

/-- What is left once constraints were taken back was there before, in the same session. -/
theorem exists_of_mem_closed {constraints : List (Constraint Rat)} {e : Entry}
    (left : e ∈ s.closed agenda constraints) :
    ∃ e₀ ∈ agenda, e₀.constraint = e.constraint ∧ e₀.role.depth? = e.role.depth? ∧
      e.constraint.tag ∉ constraints.map (·.tag) := by
  induction constraints generalizing s agenda with
  | nil => exact ⟨e, left, rfl, rfl, List.not_mem_nil⟩
  | cons c rest ih =>
      obtain ⟨e₁, inside, constraint₁, depth₁, away⟩ := ih left
      obtain ⟨e₀, before, constraint, depth, different⟩ := exists_of_mem_takenBack inside
      rw [constraint₁] at different
      exact ⟨e₀, before, constraint.trans constraint₁, depth.trans depth₁,
        List.not_mem_cons_of_ne_of_not_mem different away⟩

/-- Closing a session takes its constraints back and optimises. -/
theorem run_endEdit_eq_ok (ran : endEdit.run s = (.ok (), s')) :
    ∃ session outer s₁ s₂ values, s.sessions = session :: outer ∧
      (Step.forEach session.constraints uninstall).run s.popped = (.ok (), s₁) ∧
      (onSimplex Simplex.optimize).run { s₁ with needsRepair := false } = (.ok (), s₂) ∧
      readValues.run s₂ = (.ok values, s') := by
  rw [endEdit, Step.run_bind_get] at ran
  cases sessions : s.sessions with
  | nil =>
      rw [sessions] at ran
      cases ran
  | cons session outer =>
      rw [sessions, Step.run_bind_modify] at ran
      obtain ⟨_, s₁, closes, rest⟩ := Step.run_bind_eq_ok ran
      rw [Step.run_bind_modify] at rest
      obtain ⟨_, s₂, optimizing, rest⟩ := Step.run_bind_eq_ok rest
      obtain ⟨values, s₃, read, last⟩ := Step.run_bind_eq_ok rest
      rw [run_onSimplex_of_ok (Simplex.run_snapshot _ _)] at last
      obtain ⟨-, rfl⟩ := Prod.mk.inj last
      refine ⟨session, outer, s₁, s₂, values, rfl, ?_, optimizing, read⟩
      rwa [popped, sessions, List.tail_cons]

namespace Tends

/-- The innermost session lists the entries of its depth, which are on the agenda still once it is
away. -/
theorem popped (tends : Tends config s.depth items s) {session : Session Rat}
    {outer : List (Session Rat)} (sessions : s.sessions = session :: outer) :
    session = sessionAt s.popped.depth items ∧ Tends config (s.popped.depth + 1) items s.popped := by
  have depth : s.depth = s.popped.depth + 1 := by
    rw [Solver.depth, Solver.depth, Solver.popped, sessions, List.tail_cons, List.length_cons]
  have listed := tends.sessions
  rw [sessions, depth, sessionsOf] at listed
  obtain ⟨innermost, rest⟩ := List.cons.inj listed
  refine ⟨innermost, ⟨⟨tends.priced, tends.installed⟩, tends.sound, tends.weights, tends.config_eq,
    ?_, fun i member e at_ => depth ▸ tends.within i member e at_, tends.given, tends.made,
    tends.edits⟩⟩
  rw [← rest, Solver.popped, sessions, List.tail_cons]

/-- A session lists the entries of its depth by their tags. -/
theorem mem_tags_iff (tends : Tends config bound items s) {e : Entry} (inside : e ∈ agendaOf items)
    (depth : Nat) : e.constraint.tag ∈ (sessionAt depth items).constraints.map (·.tag) ↔
      e.role.depth? = some depth := by
  obtain ⟨i, member, rfl⟩ := List.mem_map.1 inside
  rw [List.mem_map]
  constructor
  · rintro ⟨c, listed, tag⟩
    obtain ⟨j, inItems, at_, rfl⟩ := mem_constraints_sessionAt.1 listed
    rwa [← tends.eq_of_tag inItems member tag]
  · exact fun at_ => ⟨i.constraint, mem_constraints_sessionAt.2 ⟨i, member, at_, rfl⟩, rfl⟩

variable (settings : config.Exact)
include settings

/-- Constraints of a session that is being closed leave the agenda one after another. -/
theorem leftAll {constraints : List (Constraint Rat)} (tends : Tends config (s.depth + 1) items s)
    (listed : ∀ e ∈ agendaOf items,
      e.constraint.tag ∈ constraints.map (·.tag) → e.role.depth? = some s.depth)
    (ran : (Step.forEach constraints uninstall).run s = (.ok (), s')) :
    ∃ items', Tends config (s'.depth + 1) items' s' ∧ s'.depth = s.depth ∧
      agendaOf items' = s.closed (agendaOf items) constraints ∧
      (s.SparesAll constraints → s.simplex.Sustains (posedOf items) s'.simplex (posedOf items')) ∧
      ((∀ e ∈ agendaOf items, e.role.depth? = some s.depth → Removable e.constraint) →
        s.SparesAll constraints) := by
  induction constraints generalizing s items with
  | nil =>
      obtain ⟨-, rfl⟩ := Prod.mk.inj ran
      exact ⟨items, tends, rfl, rfl, fun _ => .refl _ _, fun _ => trivial⟩
  | cons c rest ih =>
      obtain ⟨_, s₁, first, later⟩ := Step.run_bind_eq_ok
        (show (uninstall c >>= fun _ => Step.forEach rest uninstall).run s = (.ok (), s') from ran)
      obtain ⟨i, member, tag⟩ := tends.exists_of_uninstall first
      have entryIn : i.entry ∈ agendaOf items := List.mem_map_of_mem member
      have depth : i.role.depth? = some s.depth := listed i.entry entryIn
        (List.mem_map.2 ⟨c, List.mem_cons_self, tag.symm⟩)
      obtain ⟨items₁, tends₁, aside, agenda, sustains⟩ := tends.left settings member tag (fun d at_ => by
        rw [depth] at at_
        cases at_
        exact le_rfl) first
      have same := depth_eq aside
      rw [← same] at tends₁
      have before (e : Entry) (left : e ∈ agendaOf items₁) := exists_of_mem_takenBack (agenda ▸ left)
      obtain ⟨items', tends', depth', agenda', sustains', sparing⟩ := ih tends₁ (fun e left own => by
        obtain ⟨e₀, inside, constraint, depths, -⟩ := before e left
        rw [← depths, same]
        exact listed e₀ inside (constraint ▸ List.mem_cons_of_mem _ own)) later
      refine ⟨items', tends', depth'.trans same, ?_, fun spares => ?_, fun removable => ⟨?_, ?_⟩⟩
      · rw [agenda', agenda, Solver.closed, first]
      · rw [SparesAll, first] at spares
        exact (sustains spares.1).trans (sustains' spares.2)
      · exact tends.spares_of_removable settings member tag (removable i.entry entryIn depth)
      · rw [first]
        refine sparing fun e left at_ => ?_
        obtain ⟨e₀, inside, constraint, depths, -⟩ := before e left
        rw [same, ← depths] at at_
        exact constraint ▸ removable e₀ inside at_

/-- When all constraints of a session were taken back, none of its entries is on the agenda. -/
theorem closed {constraints : List (Constraint Rat)} (tends : Tends config (s.depth + 1) items s)
    (listed : ∀ e ∈ agendaOf items,
      e.constraint.tag ∈ constraints.map (·.tag) ↔ e.role.depth? = some s.depth)
    (ran : (Step.forEach constraints uninstall).run s = (.ok (), s')) :
    ∃ items', Tends config s.depth items' s' ∧ s'.depth = s.depth ∧
      agendaOf items' = s.closed (agendaOf items) constraints ∧
      (s.SparesAll constraints → s.simplex.Sustains (posedOf items) s'.simplex (posedOf items')) ∧
      ((∀ e ∈ agendaOf items, e.role.depth? = some s.depth → Removable e.constraint) →
        s.SparesAll constraints) := by
  obtain ⟨items', tends', depth, agenda, rest⟩ :=
    tends.leftAll settings (fun e inside => (listed e inside).1) ran
  rw [depth] at tends'
  refine ⟨items', { tends' with within := fun i member d at_ => ?_ }, depth, agenda, rest⟩
  refine Nat.lt_of_le_of_ne (Nat.lt_succ_iff.1 (tends'.within i member d at_)) ?_
  rintro rfl
  have left : i.entry ∈ s.closed (agendaOf items) constraints :=
    agenda ▸ List.mem_map_of_mem member
  obtain ⟨e₀, inside, constraint, depths, away⟩ := exists_of_mem_closed left
  exact away (constraint ▸ (listed e₀ inside).2 (depths.trans at_))

/-- Closing a session takes its entries off the agenda. -/
theorem ended (tends : Tends config s.depth items s) (ran : endEdit.run s = (.ok (), s')) :
    ∃ items', Tends config s'.depth items' s' ∧ s'.needsRepair = false ∧
      s'.cached = s'.simplex.values ∧ agendaOf items' = s.ended (agendaOf items) ∧
      (s.SparesEnding → s.simplex.Sustains (posedOf items) s'.simplex (posedOf items')) ∧
      ((∀ e ∈ agendaOf items, e.role.depth? = some (s.depth - 1) → Removable e.constraint) →
        s.SparesEnding) := by
  obtain ⟨session, outer, s₁, s₂, values, sessions, closes, optimizing, read⟩ := run_endEdit_eq_ok ran
  obtain ⟨innermost, tends₀⟩ := tends.popped sessions
  obtain ⟨items', tends₁, depth₁, agenda, sustains, sparing⟩ := tends₀.closed settings
    (fun e inside => innermost ▸ tends.mem_tags_iff inside s.popped.depth) closes
  have tends₂ : Tends config s₁.depth items' { s₁ with needsRepair := false } := by
    rw [depth₁]
    exact tends₁.congr tends₁.priced rfl rfl rfl le_rfl
  obtain ⟨inner, rfl, tends₃, -, still⟩ := tends₂.optimized optimizing
  rw [tends₃.run_readValues] at read
  obtain ⟨-, rfl⟩ := Prod.mk.inj read
  refine ⟨items', tends₃.congr tends₃.priced rfl rfl rfl le_rfl, rfl, rfl, ?_,
    fun spares poised => ?_, fun removable => ?_⟩
  · rw [agenda, Solver.ended, sessions]
  · rw [SparesEnding, sessions] at spares
    have closed := sustains spares poised
    obtain rfl := still closed.1.done
    exact closed
  · rw [SparesEnding, sessions]
    refine sparing fun e inside at_ => removable e inside ?_
    rw [at_, Solver.depth, Solver.depth, Solver.popped, List.length_tail]

end Tends

end Solver

end SoftSimplex
