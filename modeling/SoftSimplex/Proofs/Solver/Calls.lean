import SoftSimplex.Proofs.Solver.Solving

/-!
Runs of calls that add and take back.

A run begins with a new solver, and every call is made whether the one before it answered or failed
(`Reached`). As long as no required equation is taken back, a solver is at rest after every call
(`Reached.stands`), so that it answers as a solver that was given the surviving constraints in any other
order (`Reached.faithful`).
-/

namespace SoftSimplex

/-! ### What callers want -/

/-- An assignment satisfies the required ones of some constraints. -/
def Satisfies (x : Variable → Rat) (kept : List (Constraint Rat)) : Prop :=
  ∀ c ∈ kept, c.priority = .required → c.Holds x

/-- What an assignment misses of the optional ones of some constraints, by their weights. -/
def Config.loss (config : Config Rat) (kept : List (Constraint Rat)) (x : Variable → Rat) : Rat :=
  (kept.map fun c => (config.weight? c.priority).getD 0 * c.violation x).sum

/-- An assignment satisfies the required constraints, and none that does misses less. -/
def Config.Optimal (config : Config Rat) (kept : List (Constraint Rat)) (x : Variable → Rat) : Prop :=
  Satisfies x kept ∧ ∀ y, Satisfies y kept → config.loss kept x ≤ config.loss kept y

variable {config : Config Rat} {kept order : List (Constraint Rat)} {posed : List Posed}
  {x : Variable → Rat} {c : Constraint Rat}

theorem satisfies_cons :
    Satisfies x (c :: kept) ↔ (c.priority = .required → c.Holds x) ∧ Satisfies x kept :=
  List.forall_mem_cons

theorem satisfies_perm (perm : order.Perm kept) : Satisfies x order ↔ Satisfies x kept :=
  forall_congr' fun _ => imp_congr_left perm.mem_iff

theorem Config.loss_perm (perm : order.Perm kept) (x : Variable → Rat) :
    config.loss order x = config.loss kept x := (perm.map _).sum_eq

theorem satisfies_append : Satisfies x (order ++ kept) ↔ Satisfies x order ∧ Satisfies x kept :=
  List.forall_mem_append

theorem Config.loss_append (config : Config Rat) (order kept : List (Constraint Rat))
    (x : Variable → Rat) : config.loss (order ++ kept) x = config.loss order x + config.loss kept x := by
  rw [loss, List.map_append, List.sum_append, loss, loss]

theorem Config.loss_required (config : Config Rat) (hard : ∀ c ∈ kept, c.priority = .required)
    (x : Variable → Rat) : config.loss kept x = 0 := by
  refine List.sum_eq_zero fun value listed => ?_
  obtain ⟨c, member, rfl⟩ := List.mem_map.1 listed
  rw [hard c member]
  exact zero_mul _

theorem Config.optimal_perm (perm : order.Perm kept) :
    config.Optimal order x ↔ config.Optimal kept x := by
  unfold Config.Optimal
  simp only [satisfies_perm perm, Config.loss_perm perm]

/-- Posed constraints are those that a caller gave, at their weights. -/
structure Config.Stated (config : Config Rat) (kept : List (Constraint Rat)) (posed : List Posed) :
    Prop where
  constraints : kept = posed.map (·.constraint)
  unmoved : ∀ p ∈ posed, p.shift = 0
  weights : ∀ p ∈ posed, p.markers.weight = config.weight? p.constraint.priority

namespace Config.Stated

variable (stated : config.Stated kept posed)
include stated

theorem meetsRequired_iff (settings : config.Exact) : MeetsRequired posed x ↔ Satisfies x kept := by
  rw [stated.constraints, Satisfies, List.forall_mem_map]
  refine forall₂_congr fun p member => ?_
  rw [stated.weights p member, settings.weight_eq_none_iff,
    Posed.met_of_unmoved (stated.unmoved p member)]

theorem penalties_eq (x : Variable → Rat) : penalties posed x = config.loss kept x := by
  rw [stated.constraints, Config.loss, List.map_map, penalties]
  refine congrArg List.sum (List.map_congr_left fun p member => ?_)
  rw [Function.comp_apply, ← stated.weights p member, Posed.penalty,
    Posed.shortfall_of_unmoved (stated.unmoved p member)]

theorem cons {m : Markers Rat} (weight : m.weight = config.weight? c.priority) :
    config.Stated (c :: kept) (⟨⟨c, m⟩, 0⟩ :: posed) where
  constraints := congrArg (c :: ·) stated.constraints
  unmoved := List.forall_mem_cons.2 ⟨rfl, stated.unmoved⟩
  weights := List.forall_mem_cons.2 ⟨weight, stated.weights⟩

theorem withoutTag (tag : Tag) :
    config.Stated (kept.filter fun c => c.tag ≠ tag) (withoutTag posed tag) where
  constraints := by
    rw [stated.constraints, List.filter_map]
    rfl
  unmoved p member := stated.unmoved p (mem_withoutTag.1 member).1
  weights p member := stated.weights p (mem_withoutTag.1 member).1

theorem mem_kept {p : Posed} (member : p ∈ posed) : p.constraint ∈ kept := by
  rw [stated.constraints]
  exact List.mem_map_of_mem member

/-- A constraint that is no required equation is marked by no dummy. -/
theorem main_not_dummy (settings : config.Exact) {p : Posed} (member : p ∈ posed) (fits : p.Fits)
    (other : p.constraint.priority ≠ .required ∨ p.constraint.comparator ≠ .eq) :
    ¬p.markers.main.isDummy = true := by
  intro dummy
  rcases Markers.Fits.pivotable_or_dummy fits p.markers.main_mem_columns with
    pivotable | ⟨-, required, equation⟩
  · rw [Column.not_dummy_of_pivotable pivotable] at dummy
    cases dummy
  · rw [stated.weights p member, settings.weight_eq_none_iff] at required
    exact other.elim (· required) (· (equation required))

end Config.Stated

namespace Solver

variable {s s' : Solver Rat}

/-! ### Calls -/

/-- What a caller asks of a solver. -/
inductive Call where
  | add (c : Constraint Rat)
  | remove (c : Constraint Rat)
  | solve

namespace Call

/-- The step of a call; adding is tried in a transaction. -/
def step : Call → Step Rat (Solver Rat) Unit
  | add c => (Solver.add c).transaction
  | remove c => Solver.remove c
  | solve => do
    let _ ← Solver.solve

/-- The constraints that are registered once a call was answered. -/
def survivors (kept : List (Constraint Rat)) : Call → Except (Fault Rat) Unit → List (Constraint Rat)
  | add c, .ok _ => c :: kept
  | remove c, .ok _ => kept.filter fun d => d.tag ≠ c.tag
  | _, _ => kept

/-- Taking a constraint back loosens no dummy. -/
def Spares (s : Solver Rat) : Call → Prop
  | remove c => ∀ found, s.installed.get? c.tag = some found →
      found.markers.main.isDummy = true → ¬s.tableau.Loosens found.markers.main
  | _ => True

/-- No required equation is taken back. -/
def Admitted (kept : List (Constraint Rat)) : Call → Prop
  | remove c => ∀ d ∈ kept, d.tag = c.tag → d.priority ≠ .required ∨ d.comparator ≠ .eq
  | _ => True

end Call

/-- A solver was reached by calls, and these constraints are registered. -/
inductive Reached (config : Config Rat) : List (Constraint Rat) → Solver Rat → Prop where
  | created : Reached config [] (create config)
  | called {kept : List (Constraint Rat)} {s s' : Solver Rat} {answer : Except (Fault Rat) Unit}
      (before : Reached config kept s) (call : Call) (admitted : call.Admitted kept)
      (ran : call.step.run s = (answer, s')) : Reached config (call.survivors kept answer) s'

/-! ### One call -/

/-- A solver at rest with the constraints of a caller, and without edit sessions. -/
structure Stands (config : Config Rat) (kept : List (Constraint Rat)) (posed : List Posed)
    (s : Solver Rat) : Prop extends s.Rests posed where
  stated : config.Stated kept posed
  config_eq : s.config = config
  sessions : s.sessions = []
  repaired : s.needsRepair = false

theorem resetStays_of_no_sessions (sessions : s.sessions = []) : s.resetStays = s := by
  have none : (s.sessions.flatMap fun session =>
      session.stays.flatMap fun entry => entry.2.markers.columns) = [] := by
    rw [sessions]
    rfl
  unfold resetStays
  dsimp only
  rw [none]
  rfl

namespace Stands

variable (settings : config.Exact) (stands : Stands config kept posed s)
include settings stands

/-- The values of the tableau are best. -/
theorem optimal : config.Optimal kept s.simplex.values.value := by
  obtain ⟨meets, least⟩ := stands.settled.optimal stands.weighted
  refine ⟨(stands.stated.meetsRequired_iff settings).1 meets, fun y satisfies => ?_⟩
  have le := least y ((stands.stated.meetsRequired_iff settings).2 satisfies)
  rwa [stands.stated.penalties_eq, stands.stated.penalties_eq] at le

omit settings in
theorem run_solve : solve.run s = (.ok s.simplex.values, { s with cached := s.simplex.values }) :=
  stands.toPoses.run_solve stands.settled.done stands.repaired

omit settings in
theorem has_iff : s.has c = true ↔ ∃ d ∈ kept, d.tag = c.tag := by
  rw [stands.toPoses.has_iff, stands.stated.constraints]
  simp only [List.mem_map, exists_exists_and_eq_and]

/-- What adding a constraint comes to. -/
inductive Adding (config : Config Rat) (kept : List (Constraint Rat)) (posed : List Posed)
    (s : Solver Rat) (c : Constraint Rat) : Except (Fault Rat) Unit × Solver Rat → Prop where
  | known (registered : ∃ d ∈ kept, d.tag = c.tag) :
      Adding config kept posed s c (.error (.constraintExists c), s)
  | added {p : Posed} {s' : Solver Rat} (new : ∀ d ∈ kept, d.tag ≠ c.tag)
      (stands : Stands config (c :: kept) (p :: posed) s') : Adding config kept posed s c (.ok (), s')
  | refused {fault : Fault Rat} {s' : Solver Rat} (new : ∀ d ∈ kept, d.tag ≠ c.tag)
      (infeasible : fault.isInfeasible = true) (required : c.priority = .required)
      (contradicts : ∀ x, Satisfies x kept → ¬c.Holds x) :
      Adding config kept posed s c (.error fault, s')

theorem adding (c : Constraint Rat) : Adding config kept posed s c ((add c).run s) := by
  have same := stands.config_eq
  cases known : s.has c with
  | true =>
      rw [run_add_of_has known]
      exact .known (stands.has_iff.1 known)
  | false =>
      have new : ∀ d ∈ kept, d.tag ≠ c.tag := fun d member tagged => by
        rw [stands.has_iff.2 ⟨d, member, tagged⟩] at known
        cases known
      have priced := run_price_of_exact (same ▸ settings) c
      have installing := stands.installing
        (fun q member => new _ (stands.stated.mem_kept member)) priced
      have nonneg (w : Rat) (found : s.config.weight? c.priority = some w) : 0 ≤ w :=
        (settings.weight_pos c.priority w (same ▸ found)).le
      rw [run_add_of_new known]
      generalize (install c).run s = ended at installing
      cases installing with
      | @installed m s' weighs aside poses sustains _ =>
          have weighted : Weighted (⟨⟨c, m⟩, 0⟩ :: posed) :=
            stands.weighted.cons fun w own => nonneg w (weighs.symm.trans own)
          exact .added new ⟨⟨poses, (sustains weighted).settled stands.settled, weighted⟩,
            stands.stated.cons (same ▸ weighs), aside.config.trans same,
            aside.sessions.trans stands.sessions, aside.needsRepair.trans stands.repaired⟩
      | refused _ reason =>
          obtain ⟨infeasible, unweighted, contradicts⟩ := reason stands.toRests nonneg
          rw [same] at unweighted
          exact .refused new infeasible (settings.weight_eq_none_iff.1 unweighted) fun x satisfies =>
            contradicts x ((stands.stated.meetsRequired_iff settings).2 satisfies)

omit settings in
/-- Taking back a constraint that is registered answers. -/
theorem removing (c : Constraint Rat) (spares : (Call.remove c).Spares s) :
    (∃ s', (remove c).run s = (.ok (), s') ∧
        Stands config (kept.filter fun d => d.tag ≠ c.tag) (withoutTag posed c.tag) s') ∨
      (remove c).run s = (.error (.constraintNotFound c), s) := by
  by_cases known : ∃ p ∈ posed, p.constraint.tag = c.tag
  · obtain ⟨p, member, tagged⟩ := known
    have reset := resetStays_of_no_sessions stands.sessions
    have uninstalling := Poses.uninstalling (s := s) (reset.symm ▸ stands.toPoses) member tagged
    have own : s.simplex.Spares p := spares _ (tagged ▸ stands.installed_of_mem member)
    rw [reset] at uninstalling
    generalize ran : (uninstall c).run s = ended at uninstalling
    cases uninstalling with
    | uninstalled aside poses sustains =>
        have settled := (sustains stands.weighted own).settled stands.settled
        rw [tagged] at poses settled
        exact .inl ⟨_, ran, ⟨poses, settled, stands.weighted.withoutTag _⟩,
          stands.stated.withoutTag _, aside.config.trans stands.config_eq,
          aside.sessions.trans stands.sessions, aside.needsRepair.trans stands.repaired⟩
    | failed reason => exact absurd own (reason stands.weighted stands.settled.poised)
  · have absent : s.installed.get? c.tag = none :=
      stands.not_installed fun p member tagged => known ⟨p, member, tagged⟩
    refine .inr ?_
    rw [remove, uninstall, Step.run_bind_get, absent]
    rfl

/-- A constraint that is no required equation is marked by no dummy. -/
theorem spares {call : Call} (admitted : call.Admitted kept) : call.Spares s := by
  cases call with
  | add c => trivial
  | solve => trivial
  | remove c =>
      intro found present dummy
      rw [stands.installed, Option.map_eq_some_iff] at present
      obtain ⟨p, search, rfl⟩ := present
      have member := List.mem_of_find?_eq_some search
      have found := List.find?_some search
      have tagged : p.constraint.tag = c.tag := of_decide_eq_true found
      exact absurd dummy (stands.stated.main_not_dummy settings member
        (stands.settled.family.fits p member) (admitted _ (stands.stated.mem_kept member) tagged))

/-- After every call that loosens no dummy the solver stands with the constraints that are registered
then. -/
theorem call (call : Call) (spares : call.Spares s) {answer : Except (Fault Rat) Unit}
    (ran : call.step.run s = (answer, s')) :
    ∃ posed', Stands config (call.survivors kept answer) posed' s' := by
  cases call with
  | add c =>
      have adding := stands.adding settings c
      generalize plain : (add c).run s = ended at adding
      cases adding with
      | added new stands' =>
          rw [Call.step, Step.run_transaction_of_ok plain] at ran
          obtain ⟨rfl, rfl⟩ := Prod.mk.inj ran
          exact ⟨_, stands'⟩
      | known _ =>
          rw [Call.step, Step.run_transaction_of_error plain] at ran
          obtain ⟨rfl, rfl⟩ := Prod.mk.inj ran
          exact ⟨_, stands⟩
      | refused _ _ _ _ =>
          rw [Call.step, Step.run_transaction_of_error plain] at ran
          obtain ⟨rfl, rfl⟩ := Prod.mk.inj ran
          exact ⟨_, stands⟩
  | remove c =>
      rcases stands.removing c spares with ⟨s'', removed, stands'⟩ | missing
      · rw [Call.step, removed] at ran
        obtain ⟨rfl, rfl⟩ := Prod.mk.inj ran
        exact ⟨_, stands'⟩
      · rw [Call.step, missing] at ran
        obtain ⟨rfl, rfl⟩ := Prod.mk.inj ran
        exact ⟨_, stands⟩
  | solve =>
      rw [Call.step, Step.run_bind_of_ok stands.run_solve] at ran
      obtain ⟨rfl, rfl⟩ := Prod.mk.inj ran
      exact ⟨posed, ⟨⟨⟨stands.priced, stands.installed⟩, stands.settled, stands.weighted⟩,
        stands.stated, stands.config_eq, stands.sessions, stands.repaired⟩⟩

end Stands

/-! ### Runs of calls -/

/-- A solver that was reached by calls stands. -/
theorem Reached.stands (settings : config.Exact) (reached : Reached config kept s) :
    ∃ posed, Stands config kept posed s := by
  induction reached with
  | created =>
      exact ⟨[], rests_create settings.tolerance,
        ⟨rfl, fun _ member => absurd member List.not_mem_nil,
          fun _ member => absurd member List.not_mem_nil⟩, rfl, rfl, rfl⟩
  | called before call admitted ran ih =>
      obtain ⟨posed, stands⟩ := ih
      exact stands.call settings call (stands.spares settings admitted) ran

/-- Constraints that do not contradict each other can be added in order. -/
theorem Reached.forEach_add (settings : config.Exact) (reached : Reached config kept s)
    (nodup : (order.map (·.tag)).Nodup) (new : ∀ c ∈ order, ∀ d ∈ kept, d.tag ≠ c.tag)
    (satisfiesOrder : Satisfies x order) (satisfiesKept : Satisfies x kept) :
    ∃ s', (Step.forEach order add).run s = (.ok (), s') ∧
      Reached config (order.reverse ++ kept) s' := by
  induction order generalizing kept s with
  | nil => exact ⟨s, rfl, reached⟩
  | cons c rest ih =>
      obtain ⟨notInRest, nodupRest⟩ := List.nodup_cons.1 nodup
      obtain ⟨own, others⟩ := satisfies_cons.1 satisfiesOrder
      obtain ⟨posed, stands⟩ := reached.stands settings
      have adding := stands.adding settings c
      generalize ran : (add c).run s = ended at adding
      cases adding with
      | known registered =>
          obtain ⟨d, member, tagged⟩ := registered
          exact absurd tagged (new c List.mem_cons_self d member)
      | refused _ _ required contradicts =>
          exact absurd (own required) (contradicts x satisfiesKept)
      | @added p s₁ _ stands' =>
          have reached' : Reached config (c :: kept) s₁ :=
            reached.called (.add c) trivial (Step.run_transaction_of_ok ran)
          obtain ⟨s', last, final⟩ := ih reached' nodupRest
            (fun d inRest e member => by
              rcases List.mem_cons.1 member with rfl | old
              · exact fun tagged => notInRest (List.mem_map.2 ⟨d, inRest, tagged.symm⟩)
              · exact new d (List.mem_cons_of_mem _ inRest) e old)
            others (satisfies_cons.2 ⟨own, satisfiesKept⟩)
          refine ⟨s', (Step.run_forEach_cons_of_ok ran).trans last, ?_⟩
          rwa [List.reverse_cons, List.append_assoc]

/-- Whatever was added and taken back before, a solver refuses exactly what contradicts the required
constraints that survived, and its solution is best for those that survived, as is that of a new solver
that is given them in any order. -/
theorem Reached.faithful (settings : config.Exact) (reached : Reached config kept s) :
    (∀ c, (∀ d ∈ kept, d.tag = c.tag → d = c) →
      ((∃ s', (add c).run s = (.ok (), s')) ↔
        c ∉ kept ∧ (c.priority = .required → ∃ x, Satisfies x (c :: kept))) ∧
      ((∃ fault s', (add c).run s = (.error fault, s') ∧ fault.isInfeasible = true) ↔
        c.priority = .required ∧ ¬∃ x, Satisfies x (c :: kept))) ∧
    (∃ values s', solve.run s = (.ok values, s') ∧ config.Optimal kept values.value) ∧
    ∀ order, order.Perm kept → ∃ fresh values s',
      (Step.forEach order add).run (create config) = (.ok (), fresh) ∧
        solve.run fresh = (.ok values, s') ∧ config.Optimal kept values.value := by
  obtain ⟨posed, stands⟩ := reached.stands settings
  have best := stands.optimal settings
  refine ⟨fun c named => ?_, ⟨_, _, stands.run_solve, best⟩, fun order perm => ?_⟩
  · have adding := stands.adding settings c
    generalize ran : (add c).run s = ended at adding
    have answer {result : Except (Fault Rat) Unit} {s₁ s' : Solver Rat}
        {other : Except (Fault Rat) Unit} (same : (result, s₁) = (other, s')) : result = other :=
      congrArg Prod.fst same
    cases adding with
    | known registered =>
        obtain ⟨d, member, tagged⟩ := registered
        obtain rfl := named d member tagged
        refine ⟨⟨fun ⟨s', same⟩ => (by cases answer same), fun ⟨new, _⟩ => absurd member new⟩,
          fun ⟨fault, s', same, infeasible⟩ => ?_, fun ⟨required, contradicts⟩ => ?_⟩
        · cases answer same
          cases infeasible
        · exact absurd ⟨_, satisfies_cons.2 ⟨best.1 d member, best.1⟩⟩ contradicts
    | @added p s₁ new stands' =>
        have together := (stands'.optimal settings).1
        exact ⟨⟨fun _ => ⟨fun member => new c member rfl, fun _ => ⟨_, together⟩⟩,
          fun _ => ⟨s₁, rfl⟩⟩, fun ⟨fault, s', same, _⟩ => (by cases answer same),
          fun ⟨_, contradicts⟩ => absurd ⟨_, together⟩ contradicts⟩
    | @refused fault s₁ new infeasible required contradicts =>
        have none : ¬∃ x, Satisfies x (c :: kept) := fun ⟨x, satisfies⟩ =>
          contradicts x (satisfies_cons.1 satisfies).2 ((satisfies_cons.1 satisfies).1 required)
        exact ⟨⟨fun ⟨s', same⟩ => (by cases answer same),
          fun ⟨_, consistent⟩ => absurd (consistent required) none⟩,
          fun _ => ⟨required, none⟩, fun _ => ⟨fault, s₁, rfl, infeasible⟩⟩
  · have nodup : (kept.map (·.tag)).Nodup := by
      rw [stands.stated.constraints, List.map_map]
      exact stands.settled.family.tags
    obtain ⟨fresh, ran, reached'⟩ := Reached.created.forEach_add settings
      ((perm.map _).nodup_iff.2 nodup) (fun _ _ _ member => absurd member List.not_mem_nil)
      ((satisfies_perm perm).2 best.1) fun _ member => absurd member List.not_mem_nil
    obtain ⟨posed', stands'⟩ := reached'.stands settings
    rw [List.append_nil] at stands'
    exact ⟨fresh, _, _, ran, stands'.run_solve,
      (Config.optimal_perm (order.reverse_perm.trans perm)).1 (stands'.optimal settings)⟩

/-! ### A run -/

/-- Settings for exact arithmetic, by which a strength costs one more than its value. -/
def exactSettings : Config Rat where
  tolerance := some 0
  weights strength := some (strength + 1)

theorem exact_exactSettings : exactSettings.Exact where
  tolerance := rfl
  limited := ⟨1500, rfl⟩
  weights strength := ⟨strength + 1, rfl, by positivity⟩

/-- An unknown is to be at least one. -/
def atLeastOne : Constraint Rat :=
  { tag := .given 0, left := .variable ⟨"x", 0⟩, comparator := .ge, right := .constant 1 }

/-- At most zero, which contradicts `atLeastOne`. -/
def atMostZero : Constraint Rat :=
  { tag := .given 1, left := .variable ⟨"x", 0⟩, comparator := .le, right := .constant 0 }

/-- Preferably zero. -/
def leansToZero : Constraint Rat :=
  { tag := .given 2
    left := .variable ⟨"x", 0⟩
    comparator := .eq
    right := .constant 0
    priority := .low }

/-- A requirement that contradicts another one is refused and leaves nothing behind. Once the other one was
taken back the wish alone decides, and the requirement can be added. -/
theorem faithful_takenBack : ∃ s₁ s₂ s₃ s₄ : Solver Rat,
    (Call.add atLeastOne).step.run (create exactSettings) = (.ok (), s₁) ∧
    (Call.add leansToZero).step.run s₁ = (.ok (), s₂) ∧
    (∃ fault, (Call.add atMostZero).step.run s₂ = (.error fault, s₃)) ∧
    (Call.remove atLeastOne).step.run s₃ = (.ok (), s₄) ∧
    (∃ s', (add atMostZero).run s₄ = (.ok (), s')) ∧
    ∃ values s', solve.run s₄ = (.ok values, s') ∧
      exactSettings.Optimal [leansToZero] values.value := by
  let s₁ := ((Call.add atLeastOne).step.run (create exactSettings)).2
  let s₂ := ((Call.add leansToZero).step.run s₁).2
  obtain ⟨adds, leans, takesBack⟩ :
      ((Call.add atLeastOne).step.run (create exactSettings)).1.isOk = true ∧
      ((Call.add leansToZero).step.run s₁).1.isOk = true ∧
      ((Call.remove atLeastOne).step.run s₂).1.isOk = true := by
    decide +kernel
  obtain ⟨_, first⟩ := Step.run_of_isOk adds
  obtain ⟨_, second⟩ := Step.run_of_isOk leans
  obtain ⟨_, fourth⟩ := Step.run_of_isOk takesBack
  have reached₂ : Reached exactSettings [leansToZero, atLeastOne] s₂ :=
    .called (.called .created (.add atLeastOne) trivial first) (.add leansToZero) trivial second
  have new : ∀ d ∈ [leansToZero, atLeastOne], d.tag ≠ atMostZero.tag := by decide
  -- No value is at least one and at most zero.
  have contradict : ¬∃ x, Satisfies x [atMostZero, leansToZero, atLeastOne] := by
    rintro ⟨x, satisfies⟩
    have most : x ⟨"x", 0⟩ ≤ 0 := satisfies atMostZero (by simp) rfl
    have least : 1 ≤ x ⟨"x", 0⟩ := satisfies atLeastOne (by simp) rfl
    linarith
  obtain ⟨fault, _, refused, -⟩ := ((reached₂.faithful exact_exactSettings).1 atMostZero
    fun d member same => absurd same (new d member)).2.2 ⟨rfl, contradict⟩
  have third := Step.run_transaction_of_error refused
  have reached₃ : Reached exactSettings [leansToZero, atLeastOne] s₂ :=
    .called reached₂ (.add atMostZero) trivial third
  have reached₄ : Reached exactSettings [leansToZero] ((Call.remove atLeastOne).step.run s₂).2 := by
    refine .called reached₃ (.remove atLeastOne) (fun d member _ => ?_) fourth
    exact .inr (by revert d; decide)
  obtain ⟨decides, best, -⟩ := reached₄.faithful exact_exactSettings
  refine ⟨s₁, s₂, s₂, _, first, second, ⟨fault, third⟩, fourth, ?_, best⟩
  have alone : ∀ d ∈ [leansToZero], d.tag ≠ atMostZero.tag := by decide
  refine (decides atMostZero fun d member same => absurd same (alone d member)).1.2
    ⟨fun member => alone _ member rfl, fun _ => ⟨fun _ => 0, ?_⟩⟩
  exact satisfies_cons.2 ⟨fun _ => le_rfl, by simp [Satisfies, leansToZero, Priority.low]⟩

end Solver

end SoftSimplex
