import SoftSimplex.Proofs.Simplex.Extending
import SoftSimplex.Proofs.Simplex.Following
import SoftSimplex.Proofs.Tableau.Restoring

/-!
Adding a required constraint narrows the feasible set to what satisfies it.

The feasible set of a tableau consists of the assignments to the unknowns that slacks and dummies complete
(`Tableau.feasibleSet`). Additions, removals of inequalities and solutions leave nothing of the first phase
behind (`Assembled.stands`), and so the feasible set is what the constraints ask for
(`Stands.mem_feasibleSet_iff`), whichever way their rows came in.
-/

namespace SoftSimplex

/-- The columns and the objective of the first phase. -/
def Column.isProvisional : Column → Bool
  | .external _ => false
  | .symbol s => s.kind = .artificial || s.kind = .artificialObjective

theorem Column.slack_of_pivotable {c : Column} (pivotable : c.isPivotable = true)
    (lasting : c.isProvisional = false) : c.isSlack = true := by
  cases c with
  | external v => cases pivotable
  | symbol s =>
      simp only [isProvisional, Bool.or_eq_false_iff] at lasting
      have slack : s.kind = .slack := by simpa [isPivotable, lasting.1] using pivotable
      exact decide_eq_true slack

theorem Column.lasting_of_external {c : Column} (external : c.isExternal = true) :
    c.isProvisional = false := by
  cases c with
  | external v => rfl
  | symbol s => cases external

theorem Column.lasting_of_slack {c : Column} (slack : c.isSlack = true) :
    c.isProvisional = false := by
  cases c with
  | external v => cases slack
  | symbol s =>
      have kind : s.kind = .slack := by simpa [isSlack] using slack
      simp [isProvisional, kind]

theorem Column.lasting_of_dummy {c : Column} (dummy : c.isDummy = true) :
    c.isProvisional = false := by
  cases c with
  | external v => cases dummy
  | symbol s =>
      have kind : s.kind = .dummy := by simpa [isDummy] using dummy
      simp [isProvisional, kind]

/-- The main column of a required constraint is no column of the first phase. -/
theorem Markers.Fits.lasting {priority : Priority} {comparator : Comparator} {m : Markers Rat}
    (fits : Fits priority comparator m) (required : priority = .required) (free : m.weight = none) :
    m.main.isProvisional = false := by
  cases fits with
  | equation isDummy => exact Column.lasting_of_dummy isDummy
  | wishedEquation _ _ _ => cases free
  | bound _ isSlack => exact Column.lasting_of_slack isSlack
  | wishedBound _ _ _ _ => cases free
  | side lenient _ _ _ => exact absurd required lenient
  | turnedSide lenient _ _ _ => exact absurd required lenient

namespace Tableau

variable {t : Tableau Rat} {σ : Column → Rat}

/-- The assignments to the unknowns that are completed to one that obeys the rows, with no slack negative
and every dummy at zero. -/
def feasibleSet (t : Tableau Rat) : Set (Variable → Rat) :=
  { x | ∃ σ, onVariables σ = x ∧ (∀ c, c.isSlack = true → 0 ≤ σ c) ∧
    (∀ c, c.isDummy = true → σ c = 0) ∧ t.Obeys σ }

/-- Nothing of the first phase is left as the key of a row, in a term or in the index. -/
structure Cleared (t : Tableau Rat) : Prop where
  rows : ∀ c, c.isProvisional = true → t.rows.get? c = none
  terms : ∀ key row, t.rows.get? key = some row →
    ∀ c, c.isProvisional = true → row.terms.get? c = none
  index : ∀ c, c.isProvisional = true → t.index.get? c = none

theorem WellFormed.cleared_iff (wf : t.WellFormed) :
    t.Cleared ↔ ∀ c ∈ t.scope, c.isProvisional = false := by
  constructor
  · intro cleared c known
    by_contra provisional
    rw [Bool.not_eq_false] at provisional
    rcases mem_scope.1 known with basic | indexed
    · rw [cleared.rows c provisional] at basic
      cases basic
    · rw [cleared.index c provisional] at indexed
      cases indexed
  · intro lasting
    have outside (c : Column) (provisional : c.isProvisional = true) : c ∉ t.scope := fun known => by
      rw [lasting c known] at provisional
      cases provisional
    refine ⟨fun c provisional => not_basic_of_not_mem_scope (outside c provisional),
      fun key row found c provisional => ?_,
      fun c provisional => not_indexed_of_not_mem_scope (outside c provisional)⟩
    by_contra present
    exact outside c provisional (wf.mem_scope_of_mentions
      (mentions_iff.2 ⟨row, found, Option.isSome_iff_ne_none.2 present⟩))

/-- Where nothing of the first phase is left, its columns can be taken to be zero. -/
theorem Cleared.exists_admissible (cleared : t.Cleared) (wf : t.WellFormed) (obeys : t.Obeys σ)
    (slacks : ∀ c, c.isSlack = true → 0 ≤ σ c) (dummies : ∀ c, c.isDummy = true → σ c = 0) :
    ∃ τ, t.Holds τ ∧ Admissible τ ∧ onVariables τ = onVariables σ := by
  let lasting : Column → Rat := fun c => if c.isProvisional then 0 else σ c
  have same {c : Column} (outlasts : c.isProvisional = false) : lasting c = σ c :=
    if_neg (by simp [outlasts])
  have obeys' : t.Obeys lasting := by
    intro key row found plain
    have value : row.eval lasting = row.eval σ := Row.eval_congr fun c nonzero => same <| by
      by_contra provisional
      have present := Row.contains_of_coefficient nonzero
      rw [Sorted.Map.contains, cleared.terms key row found c (by simpa using provisional)] at present
      cases present
    have own : key.isProvisional = false := by
      by_contra provisional
      rw [cleared.rows key (by simpa using provisional)] at found
      cases found
    rw [same own, value]
    exact obeys key row found plain
  have admissible : Admissible lasting :=
    { nonneg := fun c pivotable => by
        cases provisional : c.isProvisional with
        | true => exact (if_pos provisional).ge
        | false =>
            rw [same provisional]
            exact slacks c (Column.slack_of_pivotable pivotable provisional)
      zero := fun c dummy => (same (Column.lasting_of_dummy dummy)).trans (dummies c dummy) }
  obtain ⟨τ, holds, plain⟩ := wf.exists_holds_of_obeys obeys'
  exact ⟨τ, holds, admissible.of_plain plain, funext fun v => (plain _ rfl).trans (same rfl)⟩

end Tableau

namespace Simplex

open Tableau

variable {s s' : Simplex Rat} {posed : List Posed} {value : (Variable → Rat) → Rat}
  {c : Constraint Rat} {x : Variable → Rat}

/-- A solver was reached by additions that answered, by taking inequalities out, and by solving, whatever
came of it. -/
inductive Assembled : Simplex Rat → Prop
  | installed (problem : Problem Rat) (logged : Bool) {s : Simplex Rat}
      (ran : (install problem).run (empty (some 0) problem.objective.goal logged) = (.ok (), s)) :
      Assembled s
  | added {s s' : Simplex Rat} (before : Assembled s) (c : Constraint Rat)
      (ran : (add c).run s = (.ok (), s')) : Assembled s'
  | removed {s s' : Simplex Rat} (before : Assembled s) (c : Constraint Rat)
      (inequality : ∀ registration, s.registered.get? c.tag = some registration →
        registration.constraint.comparator ≠ .eq)
      (ran : (remove c).run s = (.ok (), s')) : Assembled s'
  | solved {s s' : Simplex Rat} {answer : Except (Fault Rat) (Solution Rat)} (before : Assembled s)
      (ran : solve.run s = (answer, s')) : Assembled s'

/-- A solver knows its constraints, no restricted row is negative, and nothing of the first phase is
left. -/
structure Stands (s : Simplex Rat) (posed : List Posed) (value : (Variable → Rat) → Rat) : Prop
    extends s.Knows posed value where
  shaped : s.tableau.Shaped
  cleared : s.tableau.Cleared

theorem Knows.allRequired (knows : s.Knows posed value) : AllRequired posed := fun p member =>
  ⟨knows.tracks.unweighted p member (knows.required p member), knows.tracks.unmoved p member⟩

/-- What the solver stands for. -/
theorem Stands.mem_feasibleSet_iff (stands : s.Stands posed value) :
    x ∈ s.tableau.feasibleSet ↔ AllHold posed x := by
  have carries := stands.tracks.carries
  have represents := carries.represents
  constructor
  · rintro ⟨σ, rfl, slacks, dummies, obeys⟩
    obtain ⟨τ, holds, admissible, same⟩ := stands.cleared.exists_admissible
      represents.toWellFormed obeys slacks dummies
    rw [← same]
    exact stands.allRequired.meetsRequired_iff.1
      (carries.family.meetsRequired ((represents.holds τ).1 holds).1 admissible)
  · intro all
    obtain ⟨equations, -⟩ :=
      carries.family.completed (stands.allRequired.meetsRequired_iff.2 all)
    have holds := represents.holds_withObjectiveOf carries.family equations
    have admissible := (Family.admissible_completion posed x).withObjectiveOf
      fun σ => value (onVariables σ)
    exact ⟨_, onVariables_withObjectiveOf _ _,
      fun c slack => admissible.nonneg c (Column.pivotable_of_slack slack), admissible.zero,
      fun key row found _ => holds key row found⟩

/-! ### Adding -/

/-- What adding a required constraint comes to. -/
inductive Joining (posed : List Posed) (value : (Variable → Rat) → Rat) (c : Constraint Rat) :
    Except (Fault Rat) Unit × Simplex Rat → Prop
  | joined {column : Column} {s' : Simplex Rat}
      (stands : s'.Stands (.required c column :: posed) value) : Joining posed value c (.ok (), s')
  | refused {fault : Fault Rat} {s' : Simplex Rat} (infeasible : fault.isInfeasible = true)
      (contradicts : ∀ x, AllHold posed x → ¬c.Holds x) : Joining posed value c (.error fault, s')

theorem Stands.joining (stands : s.Stands posed value) (unregistered : s.has c = false)
    (required : c.priority = .required) : Joining posed value c ((add c).run s) := by
  have exact := stands.tracks.exact
  have growing := stands.growing unregistered required
  generalize (add c).run s = ended at growing
  cases growing with
  | refused reason =>
      obtain ⟨infeasible, contradicts⟩ := reason stands.shaped
      exact .refused infeasible fun x all =>
        contradicts x (stands.allRequired.meetsRequired_iff.2 all)
  | @grown column s' _ _ registered _ carries inserted _ =>
      refine .joined ⟨stands.grown required registered carries, inserted.shaped stands.shaped, ?_⟩
      have lasting := exact.cleared_iff.1 stands.cleared
      refine inserted.toExact.cleared_iff.2 fun d known => ?_
      rcases (inserted.scope d).1 known with before | present
      · exact lasting d before
      rcases contains_posedRow.1 present with own | reduced
      · rw [Posed.columns_required, List.mem_singleton] at own
        have fits := carries.family.fits _ List.mem_cons_self
        have lasting' := Markers.Fits.lasting fits required Posed.weight_required
        rwa [Posed.main_required, ← own] at lasting'
      · rcases (exact.expresses_reduced c).known d reduced with external | before
        · exact Column.lasting_of_external external
        · exact lasting d before

theorem Stands.added (stands : s.Stands posed value) (ran : (add c).run s = (.ok (), s')) :
    ∃ posed', s'.Stands posed' value := by
  obtain ⟨unregistered, required⟩ := run_add_eq_ok ran
  have joining := stands.joining unregistered required
  rw [ran] at joining
  cases joining with
  | joined stands' => exact ⟨_, stands'⟩

theorem Stands.addedNonnegative {v : Variable} (stands : s.Stands posed value)
    (ran : (addNonnegative v).run s = (.ok (), s')) : ∃ posed', s'.Stands posed' value :=
  Stands.added (s := { s with nextMade := s.nextMade + 1 })
    ⟨stands.counted _, stands.shaped, stands.cleared⟩ ran

theorem stands_founded (objective : Objective Rat) (logged : Bool) :
    (founded objective logged).Stands [] fun x =>
      objective.goal.sign * objective.expression.eval x where
  toKnows := knows_founded objective logged
  shaped := founded_shaped _ logged
  cleared := by
    have exact := (knows_founded objective logged).tracks.exact
    refine exact.cleared_iff.2 fun c known => ?_
    rcases mem_scope_founded.1 known with rfl | present
    · rfl
    · exact Column.lasting_of_external (objective.foundation_purgedRow.external c present)

theorem exists_stands_installed {problem : Problem Rat} {logged : Bool}
    (ran : (install problem).run (empty (some 0) problem.objective.goal logged) = (.ok (), s)) :
    ∃ posed value, s.Stands posed value := by
  rw [run_install] at ran
  obtain ⟨_, s₁, first, later⟩ := Step.run_bind_eq_ok ran
  let value (x : Variable → Rat) : Rat :=
    problem.objective.goal.sign * problem.objective.expression.eval x
  obtain ⟨posed, stands⟩ := Step.forEach_induction (P := fun s => ∃ posed, s.Stands posed value)
    (fun c _ _ _ ⟨_, stands⟩ => stands.added)
    ⟨[], stands_founded problem.objective logged⟩ first
  split at later
  · rw [Step.run_bind_get] at later
    obtain ⟨posed', stands'⟩ := Step.forEach_induction (P := fun s => ∃ posed, s.Stands posed value)
      (fun v _ _ _ ⟨_, stands⟩ => stands.addedNonnegative) ⟨posed, stands⟩ later
    exact ⟨posed', _, stands'⟩
  · obtain ⟨-, rfl⟩ := Prod.mk.inj later
    exact ⟨posed, _, stands⟩

/-! ### Taking inequalities out -/

/-- An inequality is marked by a slack, and taking it out loosens no dummy. -/
theorem Stands.removed (stands : s.Stands posed value)
    (inequality : ∀ registration, s.registered.get? c.tag = some registration →
      registration.constraint.comparator ≠ .eq)
    (ran : (remove c).run s = (.ok (), s')) : ∃ posed', s'.Stands posed' value := by
  have carries := stands.tracks.carries
  obtain ⟨p, member, found, removed⟩ := stands.exists_removed ran
  obtain ⟨posed', knows', shaped⟩ := stands.toKnows.removed ran
  refine ⟨posed', knows', shaped stands.shaped fun registration found' => ?_, ?_⟩
  · rw [found] at found'
    cases found'
    refine stands.shaped.steady.insulated.not_loosens ?_
    rcases Markers.Fits.pivotable_or_dummy (carries.family.fits p member)
      p.markers.main_mem_columns with pivotable | ⟨-, -, equation⟩
    · exact Column.not_dummy_of_pivotable pivotable
    · exact absurd (equation (stands.required p member)) (inequality _ found)
  · exact knows'.tracks.exact.cleared_iff.2 fun d known =>
      stands.tracks.exact.cleared_iff.1 stands.cleared d (removed.mem_scope carries member known).2

/-! ### Solving -/

/-- Optimising turns the tableau, also where the objective has no bound. -/
theorem Stands.exists_optimized (stands : s.Stands posed value) : ∃ answer s',
    optimize.run s = (answer, s') ∧ s.Turned s' ∧ s'.tableau.Feasible := by
  cases needed : s.needsOptimize with
  | false =>
      exact ⟨_, s, run_optimize_of_not_needed needed, ⟨rfl, rfl, rfl, rfl, .refl⟩,
        stands.shaped.feasible⟩
  | true =>
      obtain ⟨t', row, turns, feasible, -, ⟨-, -, ran⟩ | ⟨entry, -, -, ran⟩⟩ :=
        ending_minimize_of_feasible stands.tracks.exact rfl stands.shaped.feasible
          stands.tracks.carries.represents.stored
      · exact ⟨_, _, run_optimize_of_reached needed ran, ⟨rfl, rfl, rfl, rfl, turns⟩, feasible⟩
      · exact ⟨_, _, run_optimize_of_error needed ran, ⟨rfl, rfl, rfl, rfl, turns⟩, feasible⟩

theorem Stands.turned (stands : s.Stands posed value) (turned : s.Turned s')
    (feasible : s'.tableau.Feasible) : s'.Stands posed value where
  tracks := stands.tracks.turned turned
  required := stands.required
  shaped := stands.shaped.turns stands.tracks.exact turned.turns feasible
  cleared := by
    have exact := stands.tracks.exact
    refine (turned.turns.exact exact).cleared_iff.2 fun c known => ?_
    rw [turned.turns.scope_eq exact] at known
    exact exact.cleared_iff.1 stands.cleared c known

theorem Stands.solved {answer : Except (Fault Rat) (Solution Rat)} (stands : s.Stands posed value)
    (ran : solve.run s = (answer, s')) : s'.Stands posed value := by
  obtain ⟨optimized, s₁, first, turned, feasible⟩ := stands.exists_optimized
  have stands₁ := stands.turned turned feasible
  obtain ⟨row, found⟩ := Option.isSome_iff_exists.1 stands₁.tracks.carries.represents.stored
  cases optimized with
  | error fault =>
      rw [solve, Step.run_bind_of_error first] at ran
      obtain ⟨-, rfl⟩ := Prod.mk.inj ran
      exact stands₁
  | ok _ =>
      rw [solve, Step.run_bind_of_ok first, run_evaluate found] at ran
      obtain ⟨-, rfl⟩ := Prod.mk.inj ran
      exact stands₁

/-! ### The feasible set -/

theorem Assembled.stands (assembled : s.Assembled) : ∃ posed value, s.Stands posed value := by
  induction assembled with
  | installed problem logged ran => exact exists_stands_installed ran
  | added before c ran ih =>
      obtain ⟨posed, value, stands⟩ := ih
      obtain ⟨posed', stands'⟩ := stands.added ran
      exact ⟨posed', value, stands'⟩
  | removed before c inequality ran ih =>
      obtain ⟨posed, value, stands⟩ := ih
      obtain ⟨posed', stands'⟩ := stands.removed inequality ran
      exact ⟨posed', value, stands'⟩
  | solved before ran ih =>
      obtain ⟨posed, value, stands⟩ := ih
      exact ⟨posed, value, stands.solved ran⟩

/-- Adding a required constraint is refused as infeasible exactly if nothing in the feasible set satisfies
it. Otherwise it answers, the feasible set becomes the part that satisfies it, no restricted row is
negative, and nothing of the first phase is left. -/
theorem Assembled.add_spec (assembled : s.Assembled) (new : s.has c = false)
    (required : c.priority = .required) :
    ((∃ fault s', (add c).run s = (.error fault, s') ∧ fault.isInfeasible = true) ↔
      ∀ x ∈ s.tableau.feasibleSet, ¬c.Holds x) ∧
    ((∃ x ∈ s.tableau.feasibleSet, c.Holds x) → ∃ s', (add c).run s = (.ok (), s') ∧
      s'.tableau.feasibleSet = { x ∈ s.tableau.feasibleSet | c.Holds x } ∧
      (∀ key row, s'.tableau.rows.get? key = some row → key.isRestricted = true →
        0 ≤ row.constant) ∧
      s'.tableau.Cleared) := by
  obtain ⟨posed, value, stands⟩ := assembled.stands
  have joining := stands.joining new required
  generalize (add c).run s = ended at joining ⊢
  cases joining with
  | refused infeasible contradicts =>
      have none (x : Variable → Rat) (feasible : x ∈ s.tableau.feasibleSet) : ¬c.Holds x :=
        contradicts x (stands.mem_feasibleSet_iff.1 feasible)
      refine ⟨iff_of_true ⟨_, _, rfl, infeasible⟩ none, ?_⟩
      rintro ⟨x, feasible, holds⟩
      exact absurd holds (none x feasible)
  | @joined column s' stands' =>
      have narrowed (x : Variable → Rat) :
          x ∈ s'.tableau.feasibleSet ↔ x ∈ s.tableau.feasibleSet ∧ c.Holds x := by
        rw [stands'.mem_feasibleSet_iff, stands.mem_feasibleSet_iff, AllHold,
          List.forall_mem_cons]
        exact and_comm
      have admissible := stands'.shaped.admissible stands'.tracks.exact.toWellFormed
      refine ⟨iff_of_false ?_ fun none => ?_, fun _ => ⟨s', rfl, Set.ext narrowed,
        fun key row => stands'.shaped.constant_nonneg, stands'.cleared⟩⟩
      · rintro ⟨_, _, failed, -⟩
        cases failed
      · -- The basic solution of the tableau that was reached satisfies the constraint.
        have inside := (narrowed _).1 ⟨_, rfl,
          fun c slack => admissible.nonneg c (Column.pivotable_of_slack slack), admissible.zero,
          fun key row found _ => stands'.tracks.exact.holds_basicSolution key row found⟩
        exact none _ inside.1 inside.2

/-- A multiple of the sum of two unknowns is given. -/
def sumIs (tag : Nat) (scale total : Rat) : Constraint Rat where
  tag := .given tag
  left := .scale scale (.add (.variable ⟨"x", 0⟩) (.variable ⟨"y", 1⟩))
  comparator := .eq
  right := .constant total

/-- One of two unknowns is bounded. -/
def firstIs (tag : Nat) (comparator : Comparator) (bound : Rat) : Constraint Rat where
  tag := .given tag
  left := .variable ⟨"x", 0⟩
  comparator := comparator
  right := .constant bound

/-- A program that says twice what two unknowns add up to, and bounds one of them on both sides. -/
def sharing : Problem Rat where
  objective := ⟨.minimize, .variable ⟨"x", 0⟩⟩
  constraints := [sumIs 0 1 4, firstIs 1 .ge 1, sumIs 2 2 8, firstIs 3 .le 5]

/-- The solver of the program, after a solution. -/
def shared : Simplex Rat := (solve.run ((install sharing).run (empty (some 0) .minimize)).2).2

/-- The same solver without the upper bound. -/
def lifted : Simplex Rat := ((remove (firstIs 3 .le 5)).run shared).2

theorem assembled_lifted : lifted.Assembled := by
  have answers : ((install sharing).run (empty (some 0) .minimize)).1.isOk = true := by
    decide +kernel
  obtain ⟨_, built⟩ := Step.run_of_isOk answers
  have taken : ((remove (firstIs 3 .le 5)).run shared).1.isOk = true := by decide +kernel
  obtain ⟨_, removed⟩ := Step.run_of_isOk taken
  have bound : (shared.registered.get? (firstIs 3 .le 5).tag).map (·.constraint.comparator) =
    some .le := by decide +kernel
  have solved : shared.Assembled := (Assembled.installed sharing false built).solved rfl
  refine solved.removed (firstIs 3 .le 5) (fun registration found => ?_) removed
  rw [found] at bound
  have upper : registration.constraint.comparator = .le := Option.some.inj bound
  rw [upper]
  decide

/-- The lower bound is raised through the first phase, and another sum is refused. -/
theorem add_spec_lifted : lifted.Assembled ∧
    (∃ s', (add (firstIs 4 .ge 2)).run lifted = (.ok (), s') ∧
      s'.tableau.feasibleSet =
        { x ∈ lifted.tableau.feasibleSet | (firstIs 4 .ge 2).Holds x } ∧
      s'.tableau.Cleared) ∧
    ∀ x ∈ lifted.tableau.feasibleSet, ¬(sumIs 5 1 5).Holds x := by
  have raised : ((add (firstIs 4 .ge 2)).run lifted).1.isOk = true := by decide +kernel
  have refused : (match ((add (sumIs 5 1 5)).run lifted).1 with
    | .error fault => fault.isInfeasible
    | .ok _ => false) = true := by decide +kernel
  obtain ⟨decides, narrows⟩ := assembled_lifted.add_spec (c := firstIs 4 .ge 2) (by decide +kernel) rfl
  obtain ⟨decides', -⟩ := assembled_lifted.add_spec (c := sumIs 5 1 5) (by decide +kernel) rfl
  refine ⟨assembled_lifted, ?_, decides'.1 ?_⟩
  · by_cases satisfied : ∃ x ∈ lifted.tableau.feasibleSet, (firstIs 4 .ge 2).Holds x
    · obtain ⟨s', added, narrowed, -, cleared⟩ := narrows satisfied
      exact ⟨s', added, narrowed, cleared⟩
    · push Not at satisfied
      obtain ⟨fault, s', failed, -⟩ := decides.2 satisfied
      rw [failed] at raised
      cases raised
  · cases ran : (add (sumIs 5 1 5)).run lifted with
    | mk answer s' =>
        rw [ran] at refused
        cases answer with
        | ok _ => cases refused
        | error fault => exact ⟨fault, s', rfl, refused⟩

end Simplex

end SoftSimplex
