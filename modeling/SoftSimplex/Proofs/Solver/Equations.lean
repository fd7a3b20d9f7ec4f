import SoftSimplex.Proofs.Simplex.Following
import SoftSimplex.Proofs.Solver.Calls

/-!
Taking required equations back.

The values that are solved for after a required equation was taken back satisfy the other required
constraints exactly if their markers are tight in the end. The required inequalities among them are always
satisfied, and all of them if taking the equation back loosens no dummy; where every constraint is
required, they are satisfied exactly if the tableau breaks nothing (`remove_spec`). A solver that was told
an equation twice does break (`remove_spec_toldTwice`).
-/

namespace SoftSimplex

/-- An objective that is the same everywhere is lowered by nothing. -/
theorem Tableau.Represents.minimal_of_constant {t : Tableau Rat} {posed : List Posed}
    {goal : (Column → Rat) → Rat} {row : Row Rat} {k : Rat} (represents : t.Represents posed goal)
    (constant : ∀ σ, goal σ = k) (found : t.rows.get? .objective = some row) : Minimal row := by
  intro c _
  have start := ((represents.holds _).1 represents.holds_basicSolution).2
  have moved := ((represents.holds _).1 (represents.holds_ray c 1)).2
  rw [constant, basicSolution_of_basic found] at start
  rw [constant, ray_of_basic found, start, mul_one] at moved
  exact (left_eq_add.1 moved.symm).ge

namespace Solver

variable {config : Config Rat} {kept : List (Constraint Rat)} {posed : List Posed}
  {s s' : Solver Rat} {c : Constraint Rat} {permits : Solver Rat → Call → Prop}

/-- A solver was reached by permitted calls that answered, and these constraints are registered. -/
inductive Answered (config : Config Rat) (permits : Solver Rat → Call → Prop) :
    List (Constraint Rat) → Solver Rat → Prop where
  | created : Answered config permits [] (create config)
  | called {kept : List (Constraint Rat)} {s s' : Solver Rat} (before : Answered config permits kept s)
      (call : Call) (permitted : permits s call) (ran : call.step.run s = (.ok (), s')) :
      Answered config permits (call.survivors kept (.ok ())) s'

/-! ### What every call keeps -/

/-- A solver without edit sessions poses the constraints of a caller. -/
structure Bears (kept : List (Constraint Rat)) (posed : List Posed) (s : Solver Rat) : Prop
    extends s.Poses posed where
  constraints : kept = posed.map (·.constraint)
  unmoved : ∀ p ∈ posed, p.shift = 0
  unweighted : ∀ p ∈ posed, p.constraint.priority = .required → p.markers.weight = none
  sessions : s.sessions = []
  repaired : s.needsRepair = false

/-- A constraint that was installed had a weight. -/
theorem price_of_install {m : Markers Rat} (exact : s.simplex.tableau.Exact)
    (installed : (install c).run s = (.ok m, s')) : ∃ weight, (price c).run s = (.ok weight, s) := by
  rw [install, Step.run_bind_report] at installed
  obtain ⟨_, s₁, marking, -⟩ := Step.run_bind_eq_ok installed
  have residual : (onSimplex (Simplex.residualRow c)).run s =
      (.ok (s.simplex.tableau.reduced c), s) :=
    run_onSimplex_of_ok (Simplex.run_residualRow exact.toWellFormed c)
  rw [markedRow, Step.run_bind_of_ok residual] at marking
  obtain ⟨priority, s₂, admitted, rest⟩ := Step.run_bind_eq_ok marking
  have same : s₂ = s := by
    have state := run_admittedPriority c s
    rwa [admitted] at state
  subst same
  obtain ⟨weight, s₃, weighed, -⟩ := Step.run_bind_eq_ok rest
  have same : s₃ = s₂ := by
    have state := run_weightOf priority s₂
    rwa [weighed] at state
  subst same
  exact ⟨weight, by rw [price, Step.run_bind_of_ok admitted, weighed]⟩

/-- Solving optimises and reads the values of the tableau. -/
theorem run_solve_eq_ok {values : Values Rat} (poses : s.Poses posed)
    (repaired : s.needsRepair = false) (solved : solve.run s = (.ok values, s')) :
    ∃ inner, Simplex.optimize.run s.simplex = (.ok (), inner) ∧ values = inner.values ∧
      s' = { s with simplex := inner, cached := inner.values } := by
  have calm : ¬s.needsRepair = true := by simp [repaired]
  rw [solve, Step.run_bind_get, if_neg calm] at solved
  obtain ⟨_, s₁, optimized, read⟩ := Step.run_bind_eq_ok solved
  generalize ran : Simplex.optimize.run s.simplex = ended at optimized
  obtain ⟨answer, inner⟩ := ended
  cases answer with
  | error fault =>
      rw [run_onSimplex_of_error ran] at optimized
      cases optimized
  | ok answer =>
      rw [run_onSimplex_of_ok ran] at optimized
      obtain ⟨-, rfl⟩ := Prod.mk.inj optimized
      obtain ⟨turned, -⟩ := Simplex.turns_of_optimize poses.priced.exact rfl ran
      have poses' : (s.withSimplex inner).Poses posed := ⟨poses.priced.turned turned, poses.installed⟩
      rw [poses'.run_readValues] at read
      obtain ⟨same, state⟩ := Prod.mk.inj read
      exact ⟨inner, rfl, (Except.ok.inj same).symm, state.symm⟩

namespace Bears

variable (bears : Bears kept posed s)
include bears

theorem tracks : ∃ k, s.simplex.Tracks posed fun σ => k + costs posed σ := by
  obtain ⟨k, carries⟩ := bears.priced.carries
  exact ⟨k, carries, bears.priced.registered, bears.unmoved, bears.unweighted⟩

theorem satisfied_iff {x : Variable → Rat} : s.simplex.Satisfied x ↔ Satisfies x kept := by
  obtain ⟨k, tracks⟩ := bears.tracks
  rw [tracks.satisfied_iff_forall, bears.constraints, Satisfies, List.forall_mem_map]

theorem added {m : Markers Rat} (installed : (install c).run s = (.ok m, s'))
    (new : ∀ q ∈ posed, q.constraint.tag ≠ c.tag) :
    ∃ posed', Bears (c :: kept) posed' s' := by
  obtain ⟨weight, priced⟩ := price_of_install bears.priced.exact installed
  have installing := bears.installing new priced
  rw [installed] at installing
  cases installing with
  | installed weighs aside poses _ _ =>
      refine ⟨_, poses, congrArg (c :: ·) bears.constraints,
        List.forall_mem_cons.2 ⟨rfl, bears.unmoved⟩,
        List.forall_mem_cons.2 ⟨fun required => ?_, bears.unweighted⟩,
        aside.sessions.trans bears.sessions, aside.needsRepair.trans bears.repaired⟩
      rw [price_required required] at priced
      obtain ⟨same, -⟩ := Prod.mk.inj priced
      exact weighs.trans (Except.ok.inj same).symm

theorem taken (uninstalled : (uninstall c).run s = (.ok (), s')) :
    ∃ posed', Bears (kept.filter fun d => d.tag ≠ c.tag) posed' s' := by
  have reset := resetStays_of_no_sessions bears.sessions
  obtain ⟨p, member, tagged⟩ := bears.exists_of_uninstall uninstalled
  have uninstalling := Poses.uninstalling (s := s) (reset.symm ▸ bears.toPoses) member tagged
  rw [uninstalled, reset] at uninstalling
  cases uninstalling with
  | uninstalled aside poses _ =>
      rw [tagged] at poses
      refine ⟨_, poses, ?_, fun q inRest => bears.unmoved q (mem_withoutTag.1 inRest).1,
        fun q inRest => bears.unweighted q (mem_withoutTag.1 inRest).1,
        aside.sessions.trans bears.sessions, aside.needsRepair.trans bears.repaired⟩
      rw [bears.constraints, List.filter_map]
      rfl

theorem solved {values : Values Rat} (ran : solve.run s = (.ok values, s')) :
    Bears kept posed s' ∧ values = s'.simplex.values := by
  obtain ⟨inner, optimized, rfl, rfl⟩ := run_solve_eq_ok bears.toPoses bears.repaired ran
  obtain ⟨turned, -⟩ := Simplex.turns_of_optimize bears.priced.exact rfl optimized
  exact ⟨⟨⟨bears.priced.turned turned, bears.installed⟩, bears.constraints, bears.unmoved,
    bears.unweighted, bears.sessions, bears.repaired⟩, rfl⟩

/-- Every call that answers leaves a solver that bears the constraints registered then. -/
theorem call (call : Call) (ran : call.step.run s = (.ok (), s')) :
    ∃ posed', Bears (call.survivors kept (.ok ())) posed' s' := by
  cases call with
  | add c =>
      generalize plain : (add c).run s = ended at *
      obtain ⟨answer, s₁⟩ := ended
      cases answer with
      | error fault =>
          rw [Call.step, Step.run_transaction_of_error plain] at ran
          cases ran
      | ok answer =>
          rw [Call.step, Step.run_transaction_of_ok plain] at ran
          obtain ⟨-, rfl⟩ := Prod.mk.inj ran
          cases known : s.has c with
          | true =>
              rw [run_add_of_has known] at plain
              cases plain
          | false =>
              rw [run_add_of_new known] at plain
              generalize installed : (install c).run s = last at plain
              obtain ⟨answer, s₂⟩ := last
              obtain ⟨same, rfl⟩ := Prod.mk.inj plain
              cases answer with
              | error fault => cases same
              | ok m =>
                  refine bears.added installed fun q member tagged => ?_
                  rw [bears.has_iff.2 ⟨q, member, tagged⟩] at known
                  cases known
  | remove c => exact bears.taken ran
  | solve =>
      obtain ⟨values, s₁, solved, last⟩ := Step.run_bind_eq_ok ran
      obtain ⟨-, rfl⟩ := Prod.mk.inj last
      exact ⟨posed, (bears.solved solved).1⟩

end Bears

theorem Answered.bears (tolerance : config.tolerance = some 0)
    (answered : Answered config permits kept s) : ∃ posed, Bears kept posed s := by
  induction answered with
  | created =>
      exact ⟨[], (rests_create tolerance).toPoses, rfl, fun _ member => absurd member List.not_mem_nil,
        fun _ member => absurd member List.not_mem_nil, rfl, rfl⟩
  | called before call permitted ran ih =>
      obtain ⟨posed, bears⟩ := ih
      exact bears.call call ran

/-! ### Runs that loosen no dummy -/

/-- A solver that was reached by calls that loosen no dummy stands. -/
theorem Answered.stands (settings : config.Exact)
    (answered : Answered config (fun s call => call.Spares s) kept s) :
    ∃ posed, Stands config kept posed s := by
  induction answered with
  | created => exact Reached.created.stands settings
  | called before call permitted ran ih =>
      obtain ⟨posed, stands⟩ := ih
      exact stands.call settings call permitted ran

namespace Stands

variable (settings : config.Exact) (stands : Stands config kept posed s)
include settings stands

theorem bears : Bears kept posed s where
  toPoses := stands.toPoses
  constraints := stands.stated.constraints
  unmoved := stands.stated.unmoved
  unweighted p member required := by
    rw [stands.stated.weights p member]
    exact settings.weight_eq_none_iff.2 required
  sessions := stands.sessions
  repaired := stands.repaired

/-- A required constraint that is taken back leaves a feasible tableau to be read; where every
constraint is required it is the tableau that taking out the marker left. -/
theorem taking (member : c ∈ kept) (required : c.priority = .required) :
    ∃ p ∈ posed, p.constraint = c ∧ ∃ inner s', s.simplex.Removed p p.constraint.tag inner ∧
      (remove c).run s = (.ok (), s') ∧ s'.simplex.tableau.Feasible ∧
      s'.simplex.needsOptimize = false ∧
      ((∀ d ∈ kept, d.priority = .required) → s'.simplex.tableau = inner.tableau) := by
  have bears := stands.bears settings
  rw [bears.constraints] at member
  obtain ⟨p, inPosed, rfl⟩ := List.mem_map.1 member
  have unweighted := bears.unweighted p inPosed required
  have fits := stands.settled.family.fits p inPosed
  have reset := resetStays_of_no_sessions stands.sessions
  obtain ⟨inner, removed, ran⟩ :=
    Poses.run_uninstall (s := s) (reset.symm ▸ stands.toPoses) inPosed rfl
  have priced := (stands.priced.withdrawn inPosed (reset ▸ removed)).1
  rw [reset, Simplex.forgiven_of_required fits unweighted] at removed
  have cleared : inner.cleared p = inner := by
    rw [Simplex.cleared, Markers.Fits.errors_eq_nil fits unweighted]
    rfl
  rw [reset, cleared] at ran
  rw [cleared] at priced
  obtain ⟨k, tracks⟩ := bears.tracks
  have feasible := tracks.feasible_of_removed inPosed removed stands.settled.shaped
  obtain ⟨k', carries⟩ := priced.carries
  obtain ⟨t', optimized, -, feasible', -⟩ := Simplex.run_optimize_of_bounded priced.exact
    removed.needed feasible carries.represents.stored
    (carries.represents.bounded carries.family (stands.weighted.withoutTag _))
  rw [optimized] at ran
  refine ⟨p, inPosed, rfl, inner, _, removed, ran, feasible', rfl, fun all => ?_⟩
  obtain ⟨goal, found⟩ := priced.stored
  have free (σ : Column → Rat) : k' + costs (withoutTag posed p.constraint.tag) σ = k' := by
    refine add_eq_left.2 (List.sum_eq_zero fun value inCosts => ?_)
    obtain ⟨q, inRest, rfl⟩ := List.mem_map.1 inCosts
    have inPosed' := (mem_withoutTag.1 inRest).1
    have weightless := bears.unweighted q inPosed' (all _ (stands.stated.mem_kept inPosed'))
    rw [Posed.cost, weightless, Option.getD_none, zero_mul]
  have minimal := carries.represents.minimal_of_constant free found
  have still := Simplex.run_optimize_of_minimal priced.exact removed.needed found minimal
  rw [optimized] at still
  exact congrArg (fun state => state.2.tableau) still

end Stands

/-! ### Required constraints -/

/-- What the values are that are solved for after a required constraint was taken back. -/
structure TakenBack (config : Config Rat) (kept : List (Constraint Rat)) (t : Tableau Rat)
    (c : Constraint Rat) (marker : Column) (x : Variable → Rat) : Prop where
  inequalities : ∀ d ∈ kept, d.tag ≠ c.tag → d.priority = .required → d.comparator ≠ .eq → d.Holds x
  optimal : ¬t.Loosens marker → config.Optimal (kept.filter fun d => d.tag ≠ c.tag) x
  satisfies_iff : (∀ d ∈ kept, d.priority = .required) →
    (Satisfies x (kept.filter fun d => d.tag ≠ c.tag) ↔ ¬t.Breaks marker)

theorem Stands.takenBack (settings : config.Exact) (stands : Stands config kept posed s)
    (member : c ∈ kept) (required : c.priority = .required) :
    ∃ marker s' values s'', s.simplex.Registers c marker ∧ (remove c).run s = (.ok (), s') ∧
      solve.run s' = (.ok values, s'') ∧
        TakenBack config kept s.tableau c marker values.value := by
  have bears := stands.bears settings
  obtain ⟨k, tracks⟩ := bears.tracks
  obtain ⟨p, inPosed, rfl, inner, s', removed, ran, feasible, done, still⟩ :=
    stands.taking settings member required
  have family := stands.settled.family
  have unweighted := bears.unweighted p inPosed required
  obtain ⟨posed', bears'⟩ := bears.taken ran
  obtain ⟨k', tracks'⟩ := bears'.tracks
  refine ⟨p.markers.main, s', _, _, tracks.registers_iff.2 ⟨p, inPosed, rfl, rfl⟩, ran,
    bears'.run_solve done bears'.repaired, fun d inKept other isRequired unequal => ?_,
    fun tight => ?_, fun all => ?_⟩
  · have left : d ∈ kept.filter fun d => d.tag ≠ p.constraint.tag :=
      List.mem_filter.2 ⟨inKept, by simpa using other⟩
    rw [bears'.constraints] at left
    obtain ⟨q, inPosed', rfl⟩ := List.mem_map.1 left
    exact tracks'.holds_of_feasible feasible inPosed' isRequired unequal
  · have spares : (Call.remove p.constraint).Spares s := by
      intro found installed _
      rw [stands.installed_of_mem inPosed] at installed
      cases installed
      exact tight
    rcases stands.removing p.constraint spares with ⟨s₁, ran₁, stands'⟩ | missing
    · rw [ran] at ran₁
      obtain ⟨-, rfl⟩ := Prod.mk.inj ran₁
      exact stands'.optimal settings
    · rw [ran] at missing
      cases missing
  · have independent (c : Column) (_ : c.isRestricted = true)
        (others : ∀ q ∈ withoutTag posed p.constraint.tag, c ∉ q.columns) (σ : Column → Rat)
        (x : Rat) : k + costs posed (Function.update σ c x) = k + costs posed σ := by
      have same : costs (withoutTag posed p.constraint.tag) (Function.update σ c x) =
          costs (withoutTag posed p.constraint.tag) σ := by
        refine (family.withoutTag _).costs_congr fun q inRest d own => Function.update_of_ne ?_ _ _
        rintro rfl
        exact others q inRest own
      rw [family.costs_eq_add inPosed, family.costs_eq_add inPosed, Posed.cost, Posed.cost,
        unweighted, Option.getD_none, zero_mul, zero_mul, same]
    have tracksInner := tracks.takenOut inPosed removed independent
    have same : s'.simplex.values.value = inner.values.value := by
      rw [tracks'.value_eq, tracksInner.value_eq, still all]
    rw [same, (stands.stated.withoutTag _).constraints, Satisfies, List.forall_mem_map,
      ← tracksInner.satisfied_iff_forall]
    exact tracks.satisfied_removed_iff inPosed removed independent stands.settled.shaped
      fun q member weightless =>
        settings.weight_eq_none_iff.1 ((stands.stated.weights q member).symm.trans weightless)

/-- The mapping that is solved for after a required constraint was taken back satisfies the required
constraints that are left exactly if their markers are tight. In runs that loosened no dummy before, both
calls answer, the required inequalities are satisfied, and the mapping is optimal if no dummy is
loosened now either; where all constraints are required they are satisfied exactly if nothing breaks. A
simplex solver without optional constraints does the same. -/
theorem remove_spec (config : Config Rat) :
    (config.tolerance = some 0 →
      ∀ kept s, Answered config (fun _ _ => True) kept s →
      ∀ c ∈ kept, c.priority = .required →
      ∀ s' values s'', (remove c).run s = (.ok (), s') → solve.run s' = (.ok values, s'') →
        (Satisfies values.value (kept.filter fun d => d.tag ≠ c.tag) ↔ s''.simplex.Tight)) ∧
    (config.Exact →
      ∀ kept s, Answered config (fun s call => call.Spares s) kept s →
      ∀ c ∈ kept, c.priority = .required →
      ∃ marker s' values s'', s.simplex.Registers c marker ∧ (remove c).run s = (.ok (), s') ∧
        solve.run s' = (.ok values, s'') ∧
          TakenBack config kept s.tableau c marker values.value) ∧
    (∀ s, Simplex.Answered (fun _ _ => True) s →
      ∀ c s' solution s'', (Simplex.remove c).run s = (.ok (), s') →
        Simplex.solve.run s' = (.ok solution, s'') →
          (s''.Satisfied solution.values.value ↔ s''.Tight)) ∧
    ∀ s, Simplex.Answered (fun s marker => ¬s.tableau.Loosens marker) s →
      ∀ c marker, s.Registers c marker → ∃ s', (Simplex.remove c).run s = (.ok (), s') ∧
        (s'.Satisfied s'.values.value ↔ ¬s.tableau.Breaks marker) ∧
        (¬s.tableau.Loosens marker → ∀ solution s'', Simplex.solve.run s' = (.ok solution, s'') →
          s''.Satisfied solution.values.value) := by
  refine ⟨fun tolerance kept s answered c member required s' values s'' removed solved => ?_,
    fun settings kept s answered c member required => ?_,
    fun s answered c s' solution s'' removed solved => ?_,
    fun s answered c marker registers => ?_⟩
  · obtain ⟨posed, bears⟩ := answered.bears tolerance
    obtain ⟨posed', bears'⟩ := bears.taken removed
    obtain ⟨bears'', rfl⟩ := bears'.solved solved
    obtain ⟨k, tracks⟩ := bears''.tracks
    exact bears''.satisfied_iff.symm.trans tracks.satisfied_iff
  · obtain ⟨posed, stands⟩ := answered.stands settings
    exact stands.takenBack settings member required
  · exact (answered.removed c (fun _ _ => trivial) removed).satisfied_iff solved
  · exact answered.takenOut registers

/-! ### An equation that was posed twice -/

theorem Answered.forEach_add {order : List (Constraint Rat)}
    (answered : Answered config (fun s call => call.Spares s) kept s)
    (added : (Step.forEach order add).run s = (.ok (), s')) :
    Answered config (fun s call => call.Spares s) (order.reverse ++ kept) s' := by
  induction order generalizing kept s with
  | nil =>
      obtain ⟨-, rfl⟩ := Prod.mk.inj added
      exact answered
  | cons c rest ih =>
      obtain ⟨_, s₁, first, later⟩ := Step.run_bind_eq_ok (x := add c) added
      have before : Answered config (fun s call => call.Spares s) (c :: kept) s₁ :=
        answered.called (.add c) trivial (Step.run_transaction_of_ok first)
      rw [List.reverse_cons, List.append_assoc]
      exact ih before later

/-- An unknown is to be zero. -/
def isZero (tag : Nat) : Constraint Rat :=
  { tag := .given tag, left := .variable ⟨"x", 0⟩, comparator := .eq, right := .constant 0 }

/-- An unknown is to be minus five at least. -/
def atLeastMinusFive : Constraint Rat :=
  { tag := .given 2, left := .variable ⟨"x", 0⟩, comparator := .ge, right := .constant (-5) }

/-- The solver that is given an equation twice. -/
def toldTwice : Solver Rat :=
  ((Step.forEach [isZero 0, isZero 1, atLeastMinusFive] add).run (create exactSettings)).2

/-- Taking the equation back once makes the solver forget that it is still there. -/
theorem remove_spec_toldTwice :
    Answered exactSettings (fun s call => call.Spares s) [atLeastMinusFive, isZero 1, isZero 0]
      toldTwice ∧
    ∃ marker s' values s'', toldTwice.simplex.Registers (isZero 1) marker ∧
      (remove (isZero 1)).run toldTwice = (.ok (), s') ∧ solve.run s' = (.ok values, s'') ∧
        values.value ⟨"x", 0⟩ = -5 ∧ ¬Satisfies values.value [atLeastMinusFive, isZero 0] ∧
          toldTwice.tableau.Breaks marker := by
  have added : (Step.forEach [isZero 0, isZero 1, atLeastMinusFive] add).run
      (create exactSettings) = (.ok (), toldTwice) := by
    have answers : ((Step.forEach [isZero 0, isZero 1, atLeastMinusFive] add).run
        (create exactSettings)).1.isOk = true := by decide +kernel
    refine Prod.ext ?_ rfl
    generalize ((Step.forEach [isZero 0, isZero 1, atLeastMinusFive] add).run
      (create exactSettings)).1 = answer at answers
    cases answer with
    | ok _ => rfl
    | error _ => cases answers
  have answered := Answered.created.forEach_add added
  obtain ⟨marker, s', values, s'', registers, removed, solved, takenBack⟩ :=
    (remove_spec exactSettings).2.1 exact_exactSettings _ _ answered (isZero 1) (by simp) rfl
  have read : ((remove (isZero 1) >>= fun _ => solve).run toldTwice).1.toOption.map
      (·.value ⟨"x", 0⟩) = some (-5) := by decide +kernel
  rw [Step.run_bind_of_ok removed, solved] at read
  have fallen : values.value ⟨"x", 0⟩ = -5 := Option.some.inj read
  have violated : ¬Satisfies values.value [atLeastMinusFive, isZero 0] := by
    intro satisfies
    have zero : values.value ⟨"x", 0⟩ = 0 := satisfies (isZero 0) (by simp) rfl
    rw [fallen] at zero
    norm_num at zero
  refine ⟨answered, marker, s', values, s'', registers, removed, solved, fallen, violated, ?_⟩
  by_contra whole
  exact violated ((takenBack.satisfies_iff (by decide)).2 whole)

end Solver

end SoftSimplex
