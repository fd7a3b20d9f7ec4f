import SoftSimplex.Proofs.Simplex.Evaluation
import SoftSimplex.Proofs.Simplex.Truthfulness

/-!
What solvers remember of their optimality, after any calls.

Every call of a solver leaves what it remembers right, but for an insertion that a first phase refuses; and
the next insertion or removal that is answered makes it right again (`Renewed`, `flag_spec`). Until then the
solver reads its tableau as the first phase left it.
-/

namespace SoftSimplex

open Tableau

/-! ### Simplex solvers -/

namespace Simplex

variable {s s' : Simplex Rat} {problem : Problem Rat} {logged : Bool} {c : Constraint Rat}

/-- An objective in unknowns of the caller is lowered by none of the restricted columns. -/
theorem truthful_founded (problem : Problem Rat) (logged : Bool) :
    Truthful ((empty (some 0) problem.objective.goal logged).withTableau
      ((Tableau.empty (some 0) logged).insertRow .objective
        (problem.objective.unpurgedRow.purge 0))) := fun _ goal found d pivotable => by
  rw [tableau_withTableau, get?_insertRow, if_pos rfl] at found
  obtain rfl := Option.some.inj found
  rw [Row.coefficient_of_not_contains]
  rw [← Bool.not_eq_true]
  intro present
  have external := (problem.objective.foundation_purge le_rfl).external d present
  rw [Column.not_external_of_restricted (Column.restricted_of_pivotable pivotable)] at external
  cases external

theorem Pursues.tells_add (pursues : s.Pursues problem) (c : Constraint Rat) :
    s.Tells ((add c).run s) :=
  Simplex.tells_add pursues.toConsistent pursues.exact c

/-- A program that is put up without contradiction leaves a solver that knows whether it is optimal. -/
theorem truthful_ofProblem (answered : (ofProblem (some 0) problem logged).result.isOk = true) :
    (ofProblem (some 0) problem logged).state.Truthful := by
  let P (s : Simplex Rat) := s.Pursues problem ∧ s.Truthful
  have added (c : Constraint Rat) (s s' : Simplex Rat) (start : P s)
      (ran : (add c).run s = (.ok (), s')) : P s' := by
    have tells := start.1.tells_add c
    have evolves : s.Evolves .free _ := (leads_add c s).reaches
    rw [ran] at tells evolves
    exact ⟨start.1.evolves evolves, tells.answered rfl⟩
  have bounded (v : Variable) (s s' : Simplex Rat) (start : P s)
      (ran : (addNonnegative v).run s = (.ok (), s')) : P s' := by
    obtain ⟨tag, s₁, made, ran⟩ := Step.run_bind_eq_ok ran
    cases made
    have pursues := start.1
    have numbered : P (freshTag s).state :=
      ⟨⟨⟨⟨pursues.sound, pursues.stored, pursues.idle, pursues.fresh, pursues.numbered⟩,
        pursues.orderly, pursues.markers, pursues.binding⟩, pursues.goal, pursues.exact,
        pursues.billed⟩, start.2⟩
    exact added _ _ _ numbered ran
  have founded : P ((empty (some 0) problem.objective.goal logged).withTableau
      ((Tableau.empty (some 0) logged).insertRow .objective
        (problem.objective.unpurgedRow.purge 0))) :=
    ⟨⟨consistent_founded le_rfl problem.objective logged, rfl, tolerance_insertRow _ _ _,
      billed_founded _ logged⟩, truthful_founded problem logged⟩
  have ran := run_install_eq problem le_rfl logged
  obtain ⟨_, installed⟩ := Step.run_of_isOk (x := install problem) answered
  rw [installed] at ran
  obtain ⟨_, s₁, first, last⟩ := Step.run_bind_eq_ok ran.symm
  have start := Step.forEach_induction (fun c _ => added c) founded first
  show (((install problem).run _).2).Truthful
  split at last
  · rw [Step.run_bind_get] at last
    exact (Step.forEach_induction (fun v _ => bounded v) start last).2
  · cases last
    exact start.2

/-- A call that no first phase refuses leaves what a solver remembers right. -/
theorem Pursues.truthful (pursues : s.Pursues problem) (truthful : s.Truthful) (command : Command)
    (accepted : (command.step.run s).1 ≠ .error .infeasible) :
    (command.step.run s).2.Truthful := by
  cases command with
  | add c =>
      have tells := pursues.tells_add c
      cases answer : ((add c).run s).1 with
      | ok => exact tells.answered (by rw [answer]; rfl)
      | error fault =>
          exact tells.failed fault answer (fun same => accepted (same ▸ answer)) truthful
  | remove c =>
      show ((remove c).run s).2.Truthful
      rcases run_remove_cases pursues.sound.toWellFormed c with unknown | ⟨s', ran, needed⟩
      · rw [unknown]
        exact truthful
      · rw [ran]
        exact truthful_of_needed needed
  | solve =>
      have optimizing := truthful_optimize ⟨pursues.sound.toWellFormed, pursues.exact⟩ truthful
      have leads : (Command.step .solve).Leads Upholds (fun _ => True) s := by
        refine .bind (.bind ⟨fun _ => optimizing.1, fun _ _ => trivial⟩ fun _ s₁ _ _ => ?_)
          fun _ s₁ _ _ => .of_ok (Step.run_return _ s₁) (refl_of Upholds s₁)
        have reading : (evaluate.run s₁).2 = s₁ := by
          rw [evaluate, Step.run_bind_get, Step.run_ofExcept]
        exact ⟨reading.symm ▸ refl_of Upholds s₁, fun _ _ => trivial⟩
      exact leads.reaches truthful

/-- The solvers for a program after any calls, but for those in which a first phase refused a constraint and
no change of the constraints was answered since. -/
inductive Renewed (problem : Problem Rat) (logged : Bool) : Simplex Rat → Prop where
  | posed (answered : (ofProblem (some 0) problem logged).result.isOk = true) :
      Renewed problem logged (ofProblem (some 0) problem logged).state
  | called {s : Simplex Rat} (renewed : Renewed problem logged s) (command : Command)
      (accepted : (command.step.run s).1 ≠ .error .infeasible) :
      Renewed problem logged (command.step.run s).2
  | added {s s' : Simplex Rat} {c : Constraint Rat}
      (runs : (ofProblem (some 0) problem logged).state.Runs s)
      (answered : (add c).run s = (.ok (), s')) : Renewed problem logged s'
  | removed {s s' : Simplex Rat} {c : Constraint Rat}
      (runs : (ofProblem (some 0) problem logged).state.Runs s)
      (answered : (remove c).run s = (.ok (), s')) : Renewed problem logged s'

theorem Renewed.runs (renewed : Renewed problem logged s) :
    (ofProblem (some 0) problem logged).state.Runs s := by
  induction renewed with
  | posed answered => exact .refl
  | called renewed command accepted ih => exact .tail ih ⟨command, rfl⟩
  | @added s s' c runs answered => exact .tail runs ⟨.add c, congrArg (·.2) answered⟩
  | @removed s s' c runs answered => exact .tail runs ⟨.remove c, congrArg (·.2) answered⟩

theorem Runs.pursues (runs : (ofProblem (some 0) problem logged).state.Runs s) :
    s.Pursues problem :=
  (pursues_ofProblem problem logged).evolves runs.evolves

theorem Renewed.truthful (renewed : Renewed problem logged s) : s.Truthful := by
  induction renewed with
  | posed answered => exact truthful_ofProblem answered
  | called renewed command accepted ih =>
      exact renewed.runs.pursues.truthful ih command accepted
  | @added s s' c runs answered =>
      have tells := runs.pursues.tells_add c
      rw [answered] at tells
      exact tells.answered rfl
  | @removed s s' c runs answered =>
      rcases run_remove_cases runs.pursues.sound.toWellFormed c with unknown | ⟨s₁, ran, needed⟩
      · cases unknown.symm.trans answered
      · obtain rfl := (Prod.mk.inj (ran.symm.trans answered)).2
        exact truthful_of_needed needed

end Simplex

/-! ### Solvers with optional constraints -/

namespace Solver

variable {s s' s₁ : Solver Rat} {config : Config Rat} {c : Constraint Rat} {m : Markers Rat}
  {wish : Wish Rat} {session session' : Session Rat} {weight : Option Rat} {fault : Fault Rat}

/-- A coherent solver stays so, and what it remembers stays right. -/
def Upholds (s s' : Solver Rat) : Prop :=
  s.Coherent True .free → s'.Coherent True .free ∧ (s.simplex.Truthful → s'.simplex.Truthful)

instance : IsPreorder (Solver Rat) Upholds where
  refl _ := fun coherent => ⟨coherent, id⟩
  trans _ _ _ first second := fun coherent =>
    ⟨(second (first coherent).1).1, fun truthful =>
      (second (first coherent).1).2 ((first coherent).2 truthful)⟩

/-- A step keeps a solver coherent, and what it remembers right, whether it answers or fails. -/
abbrev Upheld {α : Type} (x : Step Rat (Solver Rat) α) (s : Solver Rat) : Prop :=
  x.Leads Upholds (fun _ => True) s

theorem Coherent.exact (coherent : s.Coherent True .free) : s.tableau.Exact :=
  ⟨coherent.sound.toWellFormed, (coherent.solvent trivial).tolerance⟩

theorem upholds_of_minds (minds : s.Minds True .free s')
    (truthful : s.simplex.Truthful → s'.simplex.Truthful) : s.Upholds s' := fun coherent =>
  ⟨(minds coherent).1, truthful⟩

/-- Constants that move make no difference to what lowers the objective. -/
theorem upholds_of_alike (minds : s.Minds True .free s') (alike : s.tableau.Alike s'.tableau)
    (flag : s'.simplex.needsOptimize = s.simplex.needsOptimize) : s.Upholds s' :=
  upholds_of_minds minds fun truthful done => alike.optimized (truthful (flag ▸ done))

theorem upheld_of_fares {α : Type} {x : Step Rat (Solver Rat) α} (fares : Fares True .free x s)
    (truthful : s.simplex.Truthful → (x.run s).2.simplex.Truthful) : Upheld x s :=
  ⟨upholds_of_minds fares.reaches truthful, fun _ _ => trivial⟩

theorem upheld_snapshot (milestone : Milestone) (s : Solver Rat) :
    Upheld (onSimplex (Simplex.snapshot milestone)) s :=
  .of_ok (run_onSimplex_of_ok (Simplex.run_snapshot milestone s.simplex)) (refl_of Upholds s)

theorem upheld_readValues (s : Solver Rat) : Upheld readValues s := by
  refine upheld_of_fares (fares_readValues s) ?_
  have same : (readValues.run s).2.simplex = s.simplex := by
    have evaluating := s.run_evaluate
    cases read : s.simplex.solution? with
    | ok solution =>
        rw [readValues, Step.run_bind_of_ok (evaluating.trans (by rw [read]))]
        rfl
    | error fault => rw [readValues, Step.run_bind_of_error (evaluating.trans (by rw [read]))]
  rw [same]
  exact id

theorem upholds_resetStays (s : Solver Rat) : s.Upholds s.resetStays :=
  upholds_of_alike (minds_resetStays s) (alike_zeroed s.tableau s.stayColumns) rfl

theorem upholds_forgetInfeasible (s : Solver Rat) : s.Upholds s.forgetInfeasible :=
  upholds_of_alike (minds_forgetInfeasible s) ⟨rfl, rfl, rfl, rfl, rfl, fun _ => rfl⟩ rfl

section

variable (coherent : s.Coherent True .free)
include coherent

theorem upheld_optimize : Upheld (onSimplex Simplex.optimize) s :=
  upheld_of_fares (fares_optimize coherent) fun truthful =>
    (Simplex.truthful_optimize coherent.exact truthful).1

theorem upheld_repair : Upheld (onSimplex Simplex.repair) s :=
  upheld_of_fares (fares_repair coherent) fun truthful done =>
    coherent.exact.optimized_repair coherent.sound.recorded (truthful done)

end

/-- An objective that nothing lowers is least, where the tableau is shaped. -/
theorem Coherent.basicSolution_le (coherent : s.Coherent True .free) (optimized : s.tableau.Optimized)
    (shaped : s.tableau.Shaped) {σ : Column → Rat} (holds : s.tableau.Holds σ)
    (admissible : Admissible σ) : s.tableau.basicSolution .objective ≤ σ .objective := by
  obtain ⟨goal, found⟩ : ∃ goal, s.tableau.rows.get? .objective = some goal :=
    Option.isSome_iff_exists.1 coherent.intact.stored
  obtain ⟨tolerance, -, accounts⟩ := coherent.solvent trivial
  rw [basicSolution_of_basic found]
  exact coherent.exact.constant_le found (optimized goal found) (fun c external =>
    coherent.exact.coefficient_external_eq_zero found shaped.sheltered shaped.feasible
      (accounts.bounded tolerance).exists_least external) holds admissible

/-! ### Installing -/

/-- What the end of a step says of what the inner solver remembers. -/
abbrev Tells {α : Type} (x : Step Rat (Solver Rat) α) (s : Solver Rat) : Prop :=
  s.simplex.Tells ((x.run s).1, (x.run s).2.simplex)

/-- Columns that are made for a constraint cost its weight, which does not lower the objective. -/
theorem Coherent.truthful_marked (coherent : s.Coherent True .free) (marks : s.Marked c weight m s₁)
    (priced : (price c).run s = (.ok weight, s)) (truthful : s.simplex.Truthful) :
    s₁.simplex.Truthful := fun done => by
  obtain ⟨fits, weighs, prepared, -⟩ := marks
  obtain ⟨errors, perm, charged⟩ := prepared.penalized
  have own : ∀ c ∈ errors, c ∈ m.columns := fun c error => fits.errors_subset (perm.subset error)
  rw [charged]
  refine coherent.exact.optimized_penalized coherent.intact.stored (fun c error =>
    Column.not_objective_of_restricted (fits.restricted (own c error))) (fun c error =>
      not_basic_of_not_mem_scope fun known => (prepared.columns c (own c error)).not_below
        (coherent.intact.fresh c known)) ?_ (truthful (prepared.flag ▸ done))
  exact weighs ▸ (coherent.solvent trivial).weight_nonneg priced

theorem Coherent.tells_install (coherent : s.Coherent True .free) (c : Constraint Rat) :
    Tells (install c) s := by
  rw [Tells, install, Step.run_bind_report]
  rcases coherent.marking c with ⟨fault, failed, other⟩ | ⟨weight, m, s₁, priced, marking, marks⟩
  · rw [Step.run_bind_of_error failed]
    exact .of_same (by rintro rfl; cases other)
  obtain ⟨coherent₁, -, -⟩ := coherent.marked marks priced
  have addable : s₁.simplex.Addable (s.freshRow c m) :=
    coherent.intact.addable (p := ⟨⟨c, m⟩, 0⟩) marks.fits marks.prepared coherent₁.intact
  have entered := (addable.leads_insertRow m.columns).reaches
  have inserting := (addable.tells_insertRow coherent₁.exact m.columns).mono
    (coherent.truthful_marked marks priced)
  rw [Step.run_bind_of_ok marking]
  generalize ran : (Simplex.insertRow (s.freshRow c m) m.columns).run s₁.simplex = ended
    at inserting entered
  obtain ⟨answer, inner⟩ := ended
  cases answer with
  | error fault =>
      rw [Step.run_bind_of_error (run_onSimplex_of_error ran)]
      exact inserting.of_error
  | ok =>
      have coherent₂ := coherent.withInstalled marks priced entered
      have optimizing := Simplex.truthful_optimize (s := inner.register c m.main) coherent₂.exact
        (inserting.answered rfl)
      rw [Step.run_bind_of_ok (run_onSimplex_of_ok ran), Step.run_bind_modify]
      generalize optimized : Simplex.optimize.run (inner.register c m.main) = last at optimizing
      obtain ⟨answer, final⟩ := last
      cases answer with
      | error fault =>
          rw [Step.run_bind_of_error (run_onSimplex_of_error optimized)]
          refine ⟨fun same => absurd same Bool.false_ne_true, fun _ _ _ _ => optimizing.1, fun same => ?_⟩
          cases same
          exact absurd rfl optimizing.2
      | ok =>
          rw [Step.run_bind_of_ok (run_onSimplex_of_ok optimized),
            Step.run_bind_of_ok (run_onSimplex_of_ok (Simplex.run_snapshot _ _))]
          exact ⟨fun _ => optimizing.1, by simp, by simp⟩

theorem Coherent.tells_add (coherent : s.Coherent True .free) (c : Constraint Rat) : Tells (add c) s := by
  rw [Tells, add, Step.run_bind_get]
  split
  · rw [Step.run_failStep]
    exact .of_same (by simp)
  · have tells := coherent.tells_install c
    rw [Tells] at tells
    generalize ran : (install c).run s = ended at tells
    obtain ⟨answer, s'⟩ := ended
    cases answer with
    | error fault =>
        rw [Step.run_bind_of_error ran]
        exact tells.of_error
    | ok m =>
        rw [Step.run_bind_of_ok ran]
        exact ⟨fun _ => tells.answered rfl, by simp, by simp⟩

/-! ### Taking back -/

/-- Taking an installed constraint back is optimised, whatever was remembered before. -/
theorem Coherent.truthful_uninstall (coherent : s.Coherent True .free) (c : Constraint Rat) :
    (uninstall c).run s = (.error (.constraintNotFound c), s) ∨
      ((uninstall c).run s).2.simplex.Truthful := by
  cases found : s.installed.get? c.tag with
  | none =>
      refine .inl ?_
      rw [uninstall, Step.run_bind_get, found]
      rfl
  | some i =>
      have coherent' := (minds_resetStays s coherent).1
      obtain ⟨inner, removed, ran⟩ := run_uninstall (p := ⟨i, 0⟩) coherent'.sound.toWellFormed
        coherent'.intact.stored (coherent.fits _ i found) found (by
          rw [coherent.registered, found]
          rfl)
      obtain ⟨coherent₂, -⟩ := coherent'.withdrawn found removed (absurd rfl)
      rw [ran]
      exact .inr (Simplex.truthful_optimize (s := inner.cleared ⟨i, 0⟩) coherent₂.exact
        (Simplex.truthful_of_needed removed.needed)).1

theorem upheld_uninstall (coherent : s.Coherent True .free) (c : Constraint Rat) :
    Upheld (uninstall c) s :=
  upheld_of_fares (fares_uninstall coherent c (absurd rfl)) fun truthful => by
    rcases coherent.truthful_uninstall c with unknown | renewed
    · rw [unknown]
      exact truthful
    · exact renewed

/-! ### Suggesting and solving -/

theorem upheld_suggestValue (coherent : s.Coherent True .free) (v : Variable) (value : Rat) :
    Upheld (suggestValue v value) s := by
  refine upheld_of_fares (fares_suggestValue coherent v value (absurd · Restraint.free_ne_still))
    fun truthful => ?_
  rw [suggestValue, Step.run_bind_get]
  cases found : s.edit? v with
  | none => exact truthful
  | some edit =>
      obtain ⟨session, member, known⟩ := List.exists_of_findSome?_eq_some found
      obtain ⟨entry, search, rfl⟩ := Option.map_eq_some_iff.1 known
      obtain ⟨priority, comparator, fits⟩ :=
        coherent.edits session member entry (List.mem_of_find?_eq_some search)
      have alike := (leads_shift fits coherent.sound.toWellFormed coherent.orderly
        (absurd · Restraint.free_ne_still) (value - entry.2.current)).reaches.alike
      simp only [Step.checked_rat, Scalar.isWritable_rat, Bool.and_true, Bool.or_true, Step.ensure_true,
        Step.run_bind_ofExcept_ok, Step.run_bind_modify, Step.run_bind_pureStep, Step.run_bind_report]
      exact fun done => alike.optimized (truthful done)

theorem upheld_solveRepaired (coherent : s.Coherent True .free) : Upheld solveRepaired s := by
  refine .bind (upheld_repair coherent) fun _ s₁ _ _ => ?_
  refine .bind (upheld_readValues s₁) fun values s₂ _ _ => ?_
  refine .bind_of_ok (Step.run_modify _ s₂) ?_ (.of_ok (Step.run_return values _) (refl_of Upholds _))
  refine trans_of Upholds (upholds_forgetInfeasible s₂) (trans_of Upholds (upholds_resetStays _) ?_)
  exact upholds_of_minds (minds_of_same rfl rfl rfl fun session member entry listed =>
    ⟨session, member, entry, listed, rfl⟩) id

theorem upheld_solve (coherent : s.Coherent True .free) : Upheld solve s := by
  refine .congr (Step.run_bind_get _ s) ?_
  split
  · exact upheld_solveRepaired coherent
  · exact .bind (upheld_optimize coherent) fun _ s₁ _ _ => upheld_readValues s₁

theorem upheld_suggest (coherent : s.Coherent True .free) (suggestions : Values Rat) :
    Upheld (suggest suggestions) s := by
  refine .congr (Step.run_bind_get _ s) ?_
  cases checked : s.checkSuggestions suggestions with
  | error fault =>
      exact .of_error (Step.run_bind_ofExcept_error _ _ s) (refl_of Upholds s) trivial
  | ok kept =>
      refine .congr (Step.run_bind_ofExcept_ok _ _ s) ?_
      refine .bind (.forEach fun entry _ s₁ upholds =>
        upheld_suggestValue (upholds coherent).1 entry.1 entry.2) fun _ s₁ _ upholds => ?_
      exact upheld_solveRepaired (upholds coherent).1

/-! ### Sessions -/

theorem upholds_fulfil (ran : (fulfil session wish).run s = (.ok session', s')) : s.Upholds s' := by
  refine fun coherent => ⟨?_, fun truthful => ?_⟩
  · have minds := (fares_fulfil coherent session wish).reaches
    rw [ran] at minds
    exact (minds coherent).1
  · obtain ⟨m, installed, -, -⟩ := run_fulfil_eq_ok ran
    have tells := (minds_tagged s coherent).1.tells_install (wish.constraint s)
    rw [Tells, installed] at tells
    exact tells.answered rfl

theorem upholds_fulfilAll {wishes : List (Wish Rat)}
    (ran : (fulfilAll session wishes).run s = (.ok session', s')) : s.Upholds s' := by
  induction wishes generalizing s session with
  | nil =>
      cases ran
      exact refl_of Upholds s
  | cons wish rest ih =>
      obtain ⟨session₁, s₁, first, later⟩ := Step.run_bind_eq_ok ran
      exact trans_of Upholds (upholds_fulfil first) (ih later)

/-- Opening a session is a transaction, so that a constraint that it cannot fulfil leaves no trace. -/
theorem upheld_beginEdit (coherent : s.Coherent True .free) (wishes : List (Wish Rat)) :
    Upheld (beginEdit wishes) s := by
  have fulfilling : Upheld (fulfilAll {} wishes).transaction s := by
    generalize fulfilled : (fulfilAll {} wishes).run s = ended
    obtain ⟨answer, s₁⟩ := ended
    cases answer with
    | error fault =>
        exact .of_error (Step.run_transaction_of_error fulfilled) (refl_of Upholds s) trivial
    | ok session =>
        exact .of_ok (Step.run_transaction_of_ok fulfilled) (upholds_fulfilAll fulfilled)
  refine .bind fulfilling fun session s₁ ran upholds => ?_
  have opened : s₁.Upholds { s₁ with sessions := session :: s₁.sessions } :=
    upholds_of_minds (minds_opened coherent (Step.run_transaction_eq_ok ran)) id
  have reset := trans_of Upholds opened
    (trans_of Upholds (upholds_forgetInfeasible _) (upholds_resetStays _))
  refine .bind_of_ok (Step.run_modify _ s₁) reset ?_
  exact .bind (upheld_optimize (reset (upholds coherent).1).1) fun _ s₂ _ _ => upheld_snapshot _ s₂

theorem upheld_endEdit (coherent : s.Coherent True .free) : Upheld endEdit s := by
  refine .congr (Step.run_bind_get _ s) ?_
  cases sessions : s.sessions with
  | nil => exact .of_error (Step.run_failStep _ s) (refl_of Upholds s) trivial
  | cons session outer =>
      have closed : s.Upholds { s with sessions := outer } :=
        upholds_of_minds (minds_of_same rfl rfl rfl fun before member entry listed =>
          ⟨before, sessions ▸ List.mem_cons_of_mem _ member, entry, listed, rfl⟩) id
      refine .bind_of_ok (Step.run_modify _ s) closed ?_
      refine .bind (.forEach fun c _ s₁ upholds =>
        upheld_uninstall (upholds (closed coherent).1).1 c) fun _ s₁ _ upholds => ?_
      have unrepaired : s₁.Upholds { s₁ with needsRepair := false } :=
        upholds_of_minds (minds_of_same rfl rfl rfl fun before member entry listed =>
          ⟨before, member, entry, listed, rfl⟩) id
      refine .bind_of_ok (Step.run_modify _ s₁) unrepaired ?_
      refine .bind (upheld_optimize (unrepaired (upholds (closed coherent).1).1).1) fun _ s₂ _ _ => ?_
      exact .bind (upheld_readValues s₂) fun _ s₃ _ _ => upheld_snapshot _ s₃

/-! ### Calls -/

/-- A call keeps what the solver remembers right, unless it adds a constraint that a first phase refuses. -/
theorem Coherent.truthful (coherent : s.Coherent True .free) (truthful : s.simplex.Truthful)
    (command : Command)
    (accepted : ∀ c, command = .add c → (command.step.run s).1 ≠ .error .infeasible) :
    (command.step.run s).2.simplex.Truthful := by
  cases command with
  | add c =>
      have tells := coherent.tells_add c
      cases answer : ((add c).run s).1 with
      | ok => exact tells.answered (by rw [answer]; rfl)
      | error fault =>
          exact tells.failed fault answer (fun same => accepted c rfl (same ▸ answer)) truthful
  | remove c => exact ((upheld_uninstall coherent c).reaches coherent).2 truthful
  | beginEdit wishes => exact ((upheld_beginEdit coherent wishes).reaches coherent).2 truthful
  | endEdit => exact ((upheld_endEdit coherent).reaches coherent).2 truthful
  | suggest batch =>
      have upheld : Upheld (Command.suggest batch).step s := .bind (upheld_suggest coherent batch)
        fun _ s₁ _ _ => .of_ok (Step.run_return _ _) (refl_of Upholds s₁)
      exact (upheld.reaches coherent).2 truthful
  | suggestValue v value =>
      exact ((upheld_suggestValue coherent v value).reaches coherent).2 truthful
  | solve =>
      have upheld : Upheld Command.solve.step s := .bind (upheld_solve coherent)
        fun _ s₁ _ _ => .of_ok (Step.run_return _ _) (refl_of Upholds s₁)
      exact (upheld.reaches coherent).2 truthful

/-- The solvers after any calls, but for those in which a first phase refused a constraint and no change of
the constraints was answered since. -/
inductive Renewed (config : Config Rat) : Solver Rat → Prop where
  | created : Renewed config (create config)
  | called {s : Solver Rat} (renewed : Renewed config s) (command : Command)
      (accepted : ∀ c, command = .add c → (command.step.run s).1 ≠ .error .infeasible) :
      Renewed config (command.step.run s).2
  | added {s s' : Solver Rat} {c : Constraint Rat} (runs : (create config).Runs s)
      (answered : (add c).run s = (.ok (), s')) : Renewed config s'
  | removed {s s' : Solver Rat} {c : Constraint Rat} (runs : (create config).Runs s)
      (answered : (remove c).run s = (.ok (), s')) : Renewed config s'

theorem Renewed.runs (renewed : Renewed config s) : (create config).Runs s := by
  induction renewed with
  | created => exact .refl
  | called renewed command accepted ih => exact .tail ih ⟨command, rfl⟩
  | @added s s' c runs answered => exact .tail runs ⟨.add c, congrArg (·.2) answered⟩
  | @removed s s' c runs answered => exact .tail runs ⟨.remove c, congrArg (·.2) answered⟩

section

variable (tolerance : config.tolerance = some 0)
  (weights : ∀ strength w, config.weights strength = some w → 0 ≤ w)
include tolerance weights

/-- Without tolerance, and with weights that are not negative, every call leaves a coherent solver. -/
theorem Runs.coherent (runs : (create config).Runs s) : s.Coherent True .free :=
  (runs.minds (coherent_create tolerance le_rfl fun _ => ⟨rfl, weights⟩)).1

theorem Renewed.truthful (renewed : Renewed config s) : s.simplex.Truthful := by
  induction renewed with
  | created =>
      rw [create, tolerance]
      have answered (logged : Bool) :
          (Simplex.ofProblem (some (0 : Rat)) .trivial logged).result.isOk = true := by
        cases logged <;> decide +kernel
      exact Simplex.truthful_ofProblem (answered config.logged)
  | called renewed command accepted ih =>
      exact (renewed.runs.coherent tolerance weights).truthful ih command accepted
  | @added s s' c runs answered =>
      have tells := (runs.coherent tolerance weights).tells_add c
      rw [Tells, answered] at tells
      exact tells.answered rfl
  | @removed s s' c runs answered =>
      rcases (runs.coherent tolerance weights).truthful_uninstall c with unknown | renewed
      · cases unknown.symm.trans answered
      · obtain rfl : ((remove c).run s).2 = s' := congrArg (·.2) answered
        exact renewed

end

end Solver

/-! ### What is remembered after calls -/

/-- Whatever calls are made of a solver of either sort, without tolerance and whether they answer or fail: a
solver that does not take its objective for improvable is right about it, unless a first phase refused a
constraint and no change of the constraints was answered since. After such a refusal solving takes the
tableau as it is. -/
theorem flag_spec (config : Config Rat) (problem : Problem Rat) (logged : Bool)
    (tolerance : config.tolerance = some 0)
    (weights : ∀ strength w, config.weights strength = some w → 0 ≤ w) :
    (∀ s : Solver Rat,
      (Solver.Renewed config s → s.simplex.Truthful ∧
        (s.simplex.needsOptimize = false → s.tableau.Shaped → ∀ σ, s.tableau.Holds σ → Admissible σ →
          s.tableau.basicSolution .objective ≤ σ .objective)) ∧
      ((Solver.create config).Runs s → ∀ c s', (Solver.add c).run s = (.error .infeasible, s') →
        (Solver.onSimplex Simplex.optimize).run s' = (.ok (), s'))) ∧
    ∀ s : Simplex Rat,
      (Simplex.Renewed problem logged s → s.Truthful) ∧
      ((Simplex.ofProblem (some 0) problem logged).state.Runs s → ∀ c s',
        (Simplex.add c).run s = (.error .infeasible, s') → Simplex.optimize.run s' = (.ok (), s')) := by
  refine ⟨fun s => ⟨fun renewed => ?_, fun runs c s' refused => ?_⟩,
    fun s => ⟨fun renewed => renewed.truthful, fun runs c s' refused => ?_⟩⟩
  · have truthful := renewed.truthful tolerance weights
    have coherent := renewed.runs.coherent tolerance weights
    exact ⟨truthful, fun done shaped σ holds admissible =>
      coherent.basicSolution_le (truthful done) shaped holds admissible⟩
  · have tells := (runs.coherent tolerance weights).tells_add c
    rw [Solver.Tells, refused] at tells
    exact Solver.run_onSimplex_of_ok (Simplex.run_optimize_of_not_needed (tells.exhausted rfl))
  · have tells := runs.pursues.tells_add c
    rw [refused] at tells
    exact Simplex.run_optimize_of_not_needed (tells.exhausted rfl)

namespace Solver

/-- An unknown is wanted to be zero. -/
def wishesZero : Constraint Rat where
  tag := .given 1
  left := .variable ⟨"x", 0⟩
  comparator := .eq
  right := .constant 0
  priority := .low

/-- An unknown is to be five. -/
def requiresFive : Constraint Rat :=
  { tag := .given 2, left := .variable ⟨"x", 0⟩, comparator := .eq, right := .constant 5 }

/-- The solver that keeps an unknown below two, at zero if possible. -/
def resting : Solver Rat :=
  ((add atMostTwo >>= fun _ => add wishesZero).run (create exactSettings)).2

/-- The unknown is at zero. When five is asked for in vain it comes as near as it can, and stays there
although the solver takes its objective for optimal. -/
theorem flag_spec_strained : ∃ s' values s'',
    Renewed exactSettings resting ∧ resting.simplex.Truthful ∧
    resting.simplex.values.value ⟨"x", 0⟩ = 0 ∧
    (add requiresFive).run resting = (.error .infeasible, s') ∧ ¬s'.simplex.Truthful ∧
    (onSimplex Simplex.optimize).run s' = (.ok (), s') ∧
    solve.run s' = (.ok values, s'') ∧ values.value ⟨"x", 0⟩ = 2 := by
  obtain ⟨answers, start, infeasible, solves, reads, done, lowers⟩ :
      ((add atMostTwo >>= fun _ => add wishesZero).run (create exactSettings)).1.isOk = true ∧
      resting.simplex.values.value ⟨"x", 0⟩ = 0 ∧
      (match ((add requiresFive).run resting).1 with
        | .error .infeasible => true
        | _ => false) = true ∧
      (solve.run ((add requiresFive).run resting).2).1.isOk = true ∧
      (solve.run ((add requiresFive).run resting).2).1.toOption.map (·.value ⟨"x", 0⟩) = some 2 ∧
      ((add requiresFive).run resting).2.simplex.needsOptimize = false ∧
      (((add requiresFive).run resting).2.tableau.rows.get? .objective).any (fun goal =>
        goal.terms.keys.any fun c => c.isPivotable && decide (goal.coefficient c < 0)) = true := by
    decide +kernel
  obtain ⟨_, ran⟩ := Step.run_of_isOk answers
  obtain ⟨_, s₁, first, second⟩ := Step.run_bind_eq_ok ran
  have runs : (create exactSettings).Runs s₁ :=
    .single ⟨.add atMostTwo, congrArg (·.2) first⟩
  have renewed : Renewed exactSettings resting := .added runs second
  have refused : (add requiresFive).run resting =
      (.error .infeasible, ((add requiresFive).run resting).2) := by
    refine Prod.ext ?_ rfl
    split at infeasible
    · assumption
    · cases infeasible
  have weights : ∀ strength w, exactSettings.weights strength = some w → 0 ≤ w := by
    rintro strength w ⟨⟩
    exact (Nat.cast_add_one_pos strength).le
  obtain ⟨truthful, still⟩ := (flag_spec exactSettings .trivial true rfl weights).1 resting
  obtain ⟨values, solved⟩ := Step.run_of_isOk solves
  rw [solved] at reads
  refine ⟨_, values, _, renewed, (truthful renewed).1, start, refused, fun believed => ?_,
    still renewed.runs _ _ refused, solved, Option.some.inj reads⟩
  obtain ⟨goal, found, some⟩ := (Option.any_eq_true _ _).1 lowers
  obtain ⟨c, -, lowering⟩ := List.any_eq_true.1 some
  rw [Bool.and_eq_true, decide_eq_true_eq] at lowering
  exact absurd (believed done goal found c lowering.1) (not_le.2 lowering.2)

end Solver

end SoftSimplex
