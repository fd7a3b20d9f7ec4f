import SoftSimplex.Proofs.Solver.Editing

/-!
Edits that are required.

Suggestions for required edits may contradict other required constraints. A batch that can be satisfied is
answered with values that satisfy all of them and are best; the solver fails on one that cannot be
satisfied even if required equations bind on one side only. Between the two lies what repair overlooks, as
it repairs the rows that became negative and no dummy that became positive: there the solver may answer
with values that miss a required equation (`Edited.suggest_spec`, `suggest_spec_pinned`).
-/

namespace SoftSimplex.Solver

variable {config : Config Rat} {agenda : List Entry} {s s' : Solver Rat} {batch : Values Rat}

/-- Nothing is removed, and what is suggested can be satisfied. -/
def Command.Lasting (agenda : List Entry) : Command → Prop
  | add c => ∃ n, c.tag = .given n
  | beginEdit _ => True
  | suggest batch => ∃ x, Satisfies x (wanted (retargetedAll batch agenda))
  | solve => True
  | _ => False

/-- Lasting commands keep a solver that serves its agenda. -/
theorem Serves.lasting (settings : config.Exact) (serves : Serves config agenda s) {command : Command}
    (lasting : command.Lasting agenda) (ran : command.step.run s = (.ok (), s')) :
    Serves config (command.next s agenda) s' := by
  cases command with
  | add c => exact serves.added settings lasting ran
  | remove c => exact lasting.elim
  | beginEdit wishes => exact serves.begun settings ran
  | endEdit => exact lasting.elim
  | suggest batch =>
      obtain ⟨x, satisfies⟩ := lasting
      exact serves.suggest_called settings satisfies ran
  | suggestValue v value => exact lasting.elim
  | solve => exact serves.solve_called ran

theorem Edited.serves_of_lasting (settings : config.Exact)
    (edited : Edited config (fun _ => Command.Lasting) agenda s) : Serves config agenda s := by
  induction edited with
  | created => exact serves_create settings
  | called before command permitted ran ih => exact ih.lasting settings permitted ran

/-- A batch that can be satisfied is answered with values that are best. Any other batch is answered with
values that satisfy the required inequalities and the required equations on one side, but not all that is
required, or it is refused, as it is if no such values exist. -/
theorem Edited.suggest_spec (config : Config Rat) (settings : config.Exact) (agenda : List Entry)
    (s : Solver Rat) (edited : Edited config (fun _ => Command.Lasting) agenda s) (batch : Values Rat)
    (editable : ∀ entry ∈ batch, Editable agenda entry.1) :
    ((∃ x, Satisfies x (wanted (retargetedAll batch agenda))) →
      ∃ values s', (suggest batch).run s = (.ok values, s') ∧
        config.Optimal (wanted (retargetedAll batch agenda)) values.value) ∧
    (∀ values s', (suggest batch).run s = (.ok values, s') →
      Satisfies values.value (relaxed (retargetedAll batch agenda)) ∧
        (Satisfies values.value (wanted (retargetedAll batch agenda)) ↔
          ∃ x, Satisfies x (wanted (retargetedAll batch agenda)))) ∧
    (∀ fault s', (suggest batch).run s = (.error fault, s') →
      fault = .dualFailed ∧ ∀ x, ¬Satisfies x (wanted (retargetedAll batch agenda))) ∧
    ((∀ x, ¬Satisfies x (relaxed (retargetedAll batch agenda))) →
      ∃ s', (suggest batch).run s = (.error .dualFailed, s')) := by
  have serves := edited.serves_of_lasting settings
  obtain ⟨s₁, ran, owes⟩ := serves.owes.run_suggest editable
  have mended := owes.solveRepaired settings
  rw [ran]
  generalize solveRepaired.run s₁ = ended at mended
  cases mended with
  | solved _ _ _ relaxed serves =>
      refine ⟨?_, ?_, ?_, fun none => absurd relaxed (none _)⟩
      · rintro ⟨x, satisfies⟩
        exact ⟨_, _, rfl, (serves x satisfies).2⟩
      · rintro values s' same
        cases same
        refine ⟨relaxed, fun satisfies => ⟨_, satisfies⟩, ?_⟩
        rintro ⟨x, satisfies⟩
        exact (serves x satisfies).2.1
      · rintro fault s' same
        cases same
  | failed _ _ _ unsatisfied =>
      refine ⟨?_, ?_, ?_, fun _ => ⟨_, rfl⟩⟩
      · rintro ⟨x, satisfies⟩
        exact absurd satisfies (unsatisfied x)
      · rintro values s' same
        cases same
      · rintro fault s' same
        cases same
        exact ⟨rfl, unsatisfied⟩

/-! ### A required edit of an unknown that is fixed -/

/-- An unknown is to be five. -/
def isFive : Constraint Rat :=
  { tag := .given 0, left := .variable ⟨"x", 0⟩, comparator := .eq, right := .constant 5 }

/-- The solver that fixes an unknown and lets it be edited by a required edit. -/
def pinned : Solver Rat :=
  ((add isFive >>= fun _ => beginEdit [.edit ⟨"x", 0⟩ (some (.priority .required))]).run
    (create exactSettings)).2

/-- A required edit of the fixed unknown asks it to be at its target and at five. -/
theorem satisfies_pinned {x : Variable → Rat} {target : Rat}
    (ran : (beginEdit [.edit ⟨"x", 0⟩ (some (.priority .required))]).run s = (.ok (), s'))
    (satisfies : Satisfies x (wanted (retargeted ⟨"x", 0⟩ target
      (s.begun [.edit ⟨"x", 0⟩ (some (.priority .required))] [⟨isFive, .given⟩])))) :
    x ⟨"x", 0⟩ = target ∧ x ⟨"x", 0⟩ = 5 := by
  obtain ⟨y, begun⟩ := begun_singleton ran [⟨isFive, .given⟩]
  rw [begun] at satisfies
  obtain ⟨edited, others⟩ := satisfies_cons.1 satisfies
  exact ⟨edited rfl, (satisfies_cons.1 others).1 rfl⟩

/-- The fixed unknown is moved to three and not to seven. -/
theorem suggest_spec_pinned : ∃ agenda,
    Edited exactSettings (fun _ => Command.Lasting) agenda pinned ∧
    (∃ values s', (suggest [(⟨"x", 0⟩, 3)]).run pinned = (.ok values, s') ∧
      values.value ⟨"x", 0⟩ = 3 ∧ ∀ x, ¬Satisfies x (wanted (retargeted ⟨"x", 0⟩ 3 agenda))) ∧
    ∃ s', (suggest [(⟨"x", 0⟩, 7)]).run pinned = (.error .dualFailed, s') := by
  obtain ⟨_, ran⟩ := Step.run_of_isOk (show ((add isFive >>= fun _ =>
    beginEdit [.edit ⟨"x", 0⟩ (some (.priority .required))]).run
      (create exactSettings)).1.isOk = true by decide +kernel)
  obtain ⟨_, s₁, first, second⟩ := Step.run_bind_eq_ok ran
  have edited : Edited exactSettings (fun _ => Command.Lasting) _ pinned :=
    .called (.called .created (.add isFive) ⟨0, rfl⟩ first)
      (.beginEdit [.edit ⟨"x", 0⟩ (some (.priority .required))]) trivial second
  have editable := (edited.serves_of_lasting exact_exactSettings).owes.exists_edit?_iff.1
    (Option.isSome_iff_exists.1 (show (pinned.edit? ⟨"x", 0⟩).isSome = true by decide +kernel))
  have spec (target : Rat) := Edited.suggest_spec exactSettings exact_exactSettings _ _ edited
    [(⟨"x", 0⟩, target)] (List.forall_mem_singleton.2 editable)
  refine ⟨_, edited, ?_, ?_⟩
  · obtain ⟨values, suggested⟩ := Step.run_of_isOk
      (show ((suggest [(⟨"x", 0⟩, 3)]).run pinned).1.isOk = true by decide +kernel)
    have read : ((suggest [(⟨"x", 0⟩, 3)]).run pinned).1.toOption.map (·.value ⟨"x", 0⟩) =
        some 3 := by decide +kernel
    rw [suggested] at read
    refine ⟨values, _, suggested, Option.some.inj read, fun x satisfies => ?_⟩
    have both := satisfies_pinned second satisfies
    linarith
  · refine (spec 7).2.2.2 fun x satisfies => ?_
    obtain ⟨y, begun⟩ := begun_singleton second [⟨isFive, .given⟩]
    change Satisfies x (relaxed (retargeted ⟨"x", 0⟩ 7 (s₁.begun _ [⟨isFive, .given⟩]))) at satisfies
    rw [begun] at satisfies
    obtain ⟨edited, others⟩ := satisfies_cons.1 satisfies
    have atLeast : 7 ≤ x ⟨"x", 0⟩ := edited rfl
    have atMost : x ⟨"x", 0⟩ ≤ 5 := (satisfies_cons.1 others).1 rfl
    linarith

end SoftSimplex.Solver
