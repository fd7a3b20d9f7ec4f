import SoftSimplex.Proofs.Simplex.Loosening

/-!
Runs of an incremental simplex solver.

A run puts a program in, and then adds, takes out and solves (`Answered`). After every run of calls that
answered the solver knows its constraints (`Answered.knows`), and its tableau is shaped if no dummy was
loosened on the way (`Answered.shaped`).
-/

namespace SoftSimplex.Simplex

open Tableau

variable {s s' s'' : Simplex Rat} {posed : List Posed} {value : (Variable → Rat) → Rat}
  {c : Constraint Rat} {marker : Column} {permits : Simplex Rat → Column → Prop}

/-- A solver was reached by calls that answered, where only what was permitted was taken out. -/
inductive Answered (permits : Simplex Rat → Column → Prop) : Simplex Rat → Prop where
  | installed (problem : Problem Rat) (logged : Bool) {s : Simplex Rat}
      (ran : (install problem).run (empty (some 0) problem.objective.goal logged) = (.ok (), s)) :
      Answered permits s
  | added {s s' : Simplex Rat} (before : Answered permits s) (c : Constraint Rat)
      (ran : (add c).run s = (.ok (), s')) : Answered permits s'
  | removed {s s' : Simplex Rat} (before : Answered permits s) (c : Constraint Rat)
      (permitted : ∀ registration, s.registered.get? c.tag = some registration →
        permits s registration.marker)
      (ran : (remove c).run s = (.ok (), s')) : Answered permits s'
  | solved {s s' : Simplex Rat} {solution : Solution Rat} (before : Answered permits s)
      (ran : solve.run s = (.ok solution, s')) : Answered permits s'

/-- A solver tracks required constraints, and its objective looks at unknowns only. -/
structure Knows (s : Simplex Rat) (posed : List Posed) (value : (Variable → Rat) → Rat) : Prop where
  tracks : s.Tracks posed fun σ => value (onVariables σ)
  required : ∀ p ∈ posed, p.constraint.priority = .required

/-- What a solver knows is still known in another one, as far as it is registered there, and a shaped
tableau is still shaped. -/
def Follows (value : (Variable → Rat) → Rat) (s s' : Simplex Rat) : Prop :=
  ∀ posed, s.Knows posed value →
    ∃ posed', s'.Knows posed' value ∧ (s.tableau.Shaped → s'.tableau.Shaped)

theorem Follows.trans (first : s.Follows value s') (second : s'.Follows value s'') :
    s.Follows value s'' := by
  intro posed knows
  obtain ⟨posed', knows', shaped'⟩ := first posed knows
  obtain ⟨posed'', knows'', shaped''⟩ := second posed' knows'
  exact ⟨posed'', knows'', fun shaped => shaped'' (shaped' shaped)⟩

/-! ### Adding -/

/-- A constraint that was added is required and was not registered before. -/
theorem run_add_eq_ok (added : (add c).run s = (.ok (), s')) :
    s.has c = false ∧ c.priority = .required := by
  have unregistered : s.has c = false := by
    by_contra known
    rw [add, Step.run_bind_get, if_pos (by simpa using known), Step.run_failStep] at added
    cases added
  refine ⟨unregistered, ?_⟩
  cases priority : c.priority with
  | required => rfl
  | optional strength =>
      rw [add, Step.run_bind_get, unregistered, if_neg Bool.false_ne_true, priority] at added
      cases added

theorem Knows.growing (knows : s.Knows posed value) (unregistered : s.has c = false)
    (required : c.priority = .required) :
    Growing s posed (fun σ => value (onVariables σ)) c ((add c).run s) := by
  refine knows.tracks.carries.growing (fun q member tagged => ?_) required unregistered
  have found : s.registered.get? c.tag = some ⟨q.constraint, q.markers.main⟩ :=
    tagged ▸ knows.tracks.registers_iff.2 ⟨q, member, rfl, rfl⟩
  rw [has, Sorted.Map.contains, found] at unregistered
  cases unregistered

/-- A required constraint that was added is known too. -/
theorem Knows.grown {column : Column} (knows : s.Knows posed value) (required : c.priority = .required)
    (registered : s'.registered = s.registered.insert c.tag ⟨c, column⟩)
    (carries : s'.Carries (.required c column :: posed) fun σ => value (onVariables σ)) :
    s'.Knows (.required c column :: posed) value where
  tracks :=
    { carries
      registered := registered_insert knows.tracks.registered registered
      unmoved := List.forall_mem_cons.2 ⟨rfl, knows.tracks.unmoved⟩
      unweighted := List.forall_mem_cons.2 ⟨fun _ => Posed.weight_required, knows.tracks.unweighted⟩ }
  required := List.forall_mem_cons.2 ⟨required, knows.required⟩

theorem follows_add (added : (add c).run s = (.ok (), s')) : s.Follows value s' := by
  intro posed knows
  obtain ⟨unregistered, required⟩ := run_add_eq_ok added
  have growing := knows.growing unregistered required
  rw [added] at growing
  cases growing with
  | grown _ _ registered _ carries inserted _ =>
      exact ⟨_, knows.grown required registered carries, inserted.shaped⟩

/-- The number of the next constraint does not matter to what is known. -/
theorem Knows.counted (knows : s.Knows posed value) (n : Nat) :
    { s with nextMade := n : Simplex Rat }.Knows posed value :=
  have carries := knows.tracks.carries
  ⟨⟨⟨carries.represents, carries.family, carries.fresh, carries.below⟩, knows.tracks.registered,
    knows.tracks.unmoved, knows.tracks.unweighted⟩, knows.required⟩

theorem follows_addNonnegative {v : Variable} (added : (addNonnegative v).run s = (.ok (), s')) :
    s.Follows value s' := fun posed knows =>
  follows_add (s := { s with nextMade := s.nextMade + 1 }) added posed (knows.counted _)

theorem follows_forEach {α : Type} {items : List α} {x : α → Step Rat (Simplex Rat) Unit}
    (each : ∀ item s s', (x item).run s = (.ok (), s') → s.Follows value s')
    (ran : (Step.forEach items x).run s = (.ok (), s')) : s.Follows value s' := by
  induction items generalizing s with
  | nil =>
      obtain ⟨-, rfl⟩ := Prod.mk.inj ran
      exact fun posed knows => ⟨posed, knows, id⟩
  | cons item rest ih =>
      obtain ⟨_, s₁, first, later⟩ := Step.run_bind_eq_ok (x := x item) ran
      exact (each item s s₁ first).trans (ih later)

theorem knows_founded (objective : Objective Rat) (logged : Bool) :
    (founded objective logged).Knows [] fun x =>
      objective.goal.sign * objective.expression.eval x where
  tracks :=
    ⟨carries_founded objective logged, fun _ => rfl, fun _ member => absurd member List.not_mem_nil,
      fun _ member => absurd member List.not_mem_nil⟩
  required _ member := absurd member List.not_mem_nil

theorem follows_install {problem : Problem Rat} {logged : Bool}
    (ran : (install problem).run (empty (some 0) problem.objective.goal logged) = (.ok (), s)) :
    (founded problem.objective logged).Follows value s := by
  rw [run_install] at ran
  obtain ⟨_, s₁, first, later⟩ := Step.run_bind_eq_ok ran
  refine (follows_forEach (fun c _ _ => follows_add) first).trans ?_
  split at later
  · rw [Step.run_bind_get] at later
    exact follows_forEach (fun v _ _ => follows_addNonnegative) later
  · obtain ⟨-, rfl⟩ := Prod.mk.inj later
    exact fun posed knows => ⟨posed, knows, id⟩

/-! ### Solving -/

theorem run_solve_eq_ok {solution : Solution Rat} (solved : solve.run s = (.ok solution, s')) :
    optimize.run s = (.ok (), s') ∧ solution.values = s'.values := by
  obtain ⟨_, s₁, optimized, evaluated⟩ := Step.run_bind_eq_ok solved
  have reading : s₁.solution? = .ok solution ∧ s₁ = s' := by
    rw [evaluate, Step.run_bind_get] at evaluated
    cases read : s₁.solution? with
    | error fault =>
        rw [read] at evaluated
        cases evaluated
    | ok own =>
        rw [read] at evaluated
        obtain ⟨same, state⟩ := Prod.mk.inj evaluated
        exact ⟨same, state⟩
  obtain ⟨read, rfl⟩ := reading
  refine ⟨optimized, ?_⟩
  unfold solution? at read
  split at read
  · cases read
  · cases read
    rfl

theorem follows_solve {solution : Solution Rat} (solved : solve.run s = (.ok solution, s')) :
    s.Follows value s' := by
  intro posed knows
  obtain ⟨optimized, -⟩ := run_solve_eq_ok solved
  obtain ⟨turned, feasible⟩ := turns_of_optimize knows.tracks.exact rfl optimized
  exact ⟨posed, ⟨knows.tracks.turned turned, knows.required⟩, fun shaped =>
    shaped.turns knows.tracks.exact turned.turns (feasible shaped.feasible)⟩

/-! ### Taking out -/

theorem Knows.independent (restricted : marker.isRestricted = true) (σ : Column → Rat) (x : Rat) :
    value (onVariables (Function.update σ marker x)) = value (onVariables σ) := by
  rw [onVariables_update restricted]

theorem run_remove_eq_ok (removed : (remove c).run s = (.ok (), s')) :
    ∃ registration, s.registered.get? c.tag = some registration := by
  cases found : s.registered.get? c.tag with
  | some registration => exact ⟨registration, rfl⟩
  | none =>
      rw [remove, Step.run_bind_get, found] at removed
      cases removed

/-- What was taken out is one of the constraints. -/
theorem Knows.exists_removed (knows : s.Knows posed value) (ran : (remove c).run s = (.ok (), s')) :
    ∃ p ∈ posed, s.registered.get? c.tag = some ⟨p.constraint, p.markers.main⟩ ∧
      s.Removed p p.constraint.tag s' := by
  have tracks := knows.tracks
  obtain ⟨registration, found⟩ := run_remove_eq_ok ran
  have registered := tracks.registered c.tag
  rw [found] at registered
  obtain ⟨p, search, rfl⟩ := Option.map_eq_some_iff.1 registered.symm
  have satisfies := List.find?_some search
  have tagged : p.constraint.tag = c.tag := of_decide_eq_true satisfies
  obtain ⟨s₁, ran₁, removed⟩ := run_remove (p := p) tracks.exact.toWellFormed found rfl
  rw [ran] at ran₁
  obtain ⟨-, rfl⟩ := Prod.mk.inj ran₁
  exact ⟨p, List.mem_of_find?_eq_some search, found, tagged ▸ removed⟩

/-- What is known and not taken out is still known, and a tableau is still shaped if no dummy was
loosened. -/
theorem Knows.removed (knows : s.Knows posed value) (ran : (remove c).run s = (.ok (), s')) :
    ∃ posed', s'.Knows posed' value ∧ (s.tableau.Shaped →
      (∀ registration, s.registered.get? c.tag = some registration →
        ¬s.tableau.Loosens registration.marker) → s'.tableau.Shaped) := by
  have tracks := knows.tracks
  obtain ⟨p, member, found, removed⟩ := knows.exists_removed ran
  exact ⟨_, ⟨tracks.takenOut member removed fun c restricted _ => Knows.independent restricted,
    fun q inRest => knows.required q (mem_withoutTag.1 inRest).1⟩, fun shaped spares =>
      (removed.carries tracks.carries member fun σ x => Knows.independent (Markers.Fits.restricted
        (tracks.carries.family.fits p member) p.markers.main_mem_columns) σ x).2.2 shaped
          (spares _ found)⟩

/-! ### Runs -/

/-- After calls that answered a solver knows what is registered. -/
theorem Answered.knows (answered : Answered permits s) : ∃ posed value, s.Knows posed value := by
  induction answered with
  | installed problem logged ran =>
      obtain ⟨posed, knows, -⟩ := follows_install ran [] (knows_founded _ logged)
      exact ⟨posed, _, knows⟩
  | added before c ran ih =>
      obtain ⟨posed, value, knows⟩ := ih
      obtain ⟨posed', knows', -⟩ := follows_add ran posed knows
      exact ⟨posed', value, knows'⟩
  | removed before c permitted ran ih =>
      obtain ⟨posed, value, knows⟩ := ih
      obtain ⟨posed', knows', -⟩ := knows.removed ran
      exact ⟨posed', value, knows'⟩
  | solved before ran ih =>
      obtain ⟨posed, value, knows⟩ := ih
      obtain ⟨posed', knows', -⟩ := follows_solve ran posed knows
      exact ⟨posed', value, knows'⟩

/-- If no dummy was loosened the tableau is shaped. -/
theorem Answered.shaped (answered : Answered (fun s marker => ¬s.tableau.Loosens marker) s) :
    s.tableau.Shaped := by
  induction answered with
  | installed problem logged ran =>
      obtain ⟨posed, -, shaped⟩ := follows_install ran [] (knows_founded _ logged)
      exact shaped (founded_shaped _ logged)
  | added before c ran ih =>
      obtain ⟨posed, value, knows⟩ := before.knows
      obtain ⟨posed', -, shaped⟩ := follows_add ran posed knows
      exact shaped ih
  | removed before c permitted ran ih =>
      obtain ⟨posed, value, knows⟩ := before.knows
      obtain ⟨posed', -, shaped⟩ := knows.removed ran
      exact shaped ih permitted
  | solved before ran ih =>
      obtain ⟨posed, value, knows⟩ := before.knows
      obtain ⟨posed', -, shaped⟩ := follows_solve ran posed knows
      exact shaped ih

/-- What is solved for satisfies the registered constraints exactly if their markers are tight. -/
theorem Answered.satisfied_iff {solution : Solution Rat} (answered : Answered permits s)
    (solved : solve.run s = (.ok solution, s')) :
    s'.Satisfied solution.values.value ↔ s'.Tight := by
  obtain ⟨posed, value, knows⟩ := (answered.solved solved).knows
  rw [(run_solve_eq_ok solved).2]
  exact knows.tracks.satisfied_iff

/-- If no dummy was loosened before, taking a registered constraint out answers. The values are then
right exactly if nothing breaks, and so is every solution if no dummy is loosened now. -/
theorem Answered.takenOut (answered : Answered (fun s marker => ¬s.tableau.Loosens marker) s)
    (registers : s.Registers c marker) : ∃ s', (remove c).run s = (.ok (), s') ∧
      (s'.Satisfied s'.values.value ↔ ¬s.tableau.Breaks marker) ∧
      (¬s.tableau.Loosens marker → ∀ solution s'', solve.run s' = (.ok solution, s'') →
        s''.Satisfied solution.values.value) := by
  obtain ⟨posed, value, knows⟩ := answered.knows
  have tracks := knows.tracks
  obtain ⟨p, member, rfl, rfl⟩ := tracks.registers_iff.1 registers
  obtain ⟨s', ran, removed⟩ := run_remove tracks.exact.toWellFormed registers rfl
  refine ⟨s', ran, ?_, fun tight solution s'' solved => ?_⟩
  · exact tracks.satisfied_removed_iff member removed
      (fun c restricted _ => Knows.independent restricted) answered.shaped
      fun q inPosed _ => knows.required q inPosed
  · have spared : ∀ registration, s.registered.get? p.constraint.tag = some registration →
        ¬s.tableau.Loosens registration.marker := by
      intro registration found
      rw [registers] at found
      cases found
      exact tight
    have answered'' := (answered.removed p.constraint spared ran).solved solved
    obtain ⟨posed'', value'', knows''⟩ := answered''.knows
    rw [(run_solve_eq_ok solved).2]
    exact knows''.tracks.satisfied_of_shaped answered''.shaped

end SoftSimplex.Simplex
