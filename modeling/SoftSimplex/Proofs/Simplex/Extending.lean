import SoftSimplex.Proofs.Simplex.Enrolling

/-!
Building the tableau of a program.

Constraints are added one after another, and then a constraint for every variable that is known, which
says that it is not negative. What a stretch of additions asks for, which variables it names and which it
makes basic is a `Request`; a stretch comes to a solver that has enrolled what was asked for, or it finds
that no assignment satisfies all of it (`Extending`). Two stretches make one (`Extending.andThen`).
-/

namespace SoftSimplex.Simplex

open Tableau

variable {s s' : Simplex Rat} {posed posed' : List Posed} {goal : (Column → Rat) → Rat}
  {c : Constraint Rat} {v w : Variable}

/-- What a stretch of additions asks for, which variables it names and makes basic, and by which tags
its constraints are known. -/
structure Request where
  asked : (Variable → Rat) → Prop
  named : Variable → Prop
  entered : Variable → Prop
  tagged : Tag → Prop

/-- Nothing is asked for where nothing is added. -/
def Request.nothing : Request where
  asked _ := True
  named _ := False
  entered _ := False
  tagged _ := False

/-- Two stretches ask for what each of them does. -/
def Request.and (first second : Request) : Request where
  asked x := first.asked x ∧ second.asked x
  named v := first.named v ∨ second.named v
  entered v := first.entered v ∨ second.entered v
  tagged tag := first.tagged tag ∨ second.tagged tag

/-- Every constraint of a family holds. -/
def AllHold (posed : List Posed) (x : Variable → Rat) : Prop := ∀ p ∈ posed, p.constraint.Holds x

/-- A solver came from another one by a stretch of additions. -/
structure Extends (goal : (Column → Rat) → Rat) (request : Request) (s : Simplex Rat)
    (posed : List Posed) (s' : Simplex Rat) (posed' : List Posed) : Prop where
  sameGoal : s'.goal = s.goal
  enrolled : s'.Enrolled posed' goal
  shaped : s'.tableau.Shaped
  holds : ∀ x, AllHold posed' x ↔ AllHold posed x ∧ request.asked x
  known : ∀ v, .external v ∈ s'.tableau.scope ↔ .external v ∈ s.tableau.scope ∨ request.named v
  basic : ∀ v, (s.tableau.rows.get? (.external v)).isSome ∨ request.entered v →
    (s'.tableau.rows.get? (.external v)).isSome
  needed : s'.needsOptimize = true ∨ s' = s
  tags : ∀ q ∈ posed', q ∈ posed ∨ request.tagged q.constraint.tag

/-- What a stretch of additions may come to. -/
inductive Extending (goal : (Column → Rat) → Rat) (request : Request) (s : Simplex Rat)
    (posed : List Posed) : Except (Fault Rat) Unit × Simplex Rat → Prop where
  | extended {s' : Simplex Rat} {posed' : List Posed}
      (extends' : Extends goal request s posed s' posed') :
      Extending goal request s posed (.ok (), s')
  | refused {fault : Fault Rat} {s' : Simplex Rat} (infeasible : fault.isInfeasible = true)
      (contradicts : ∀ x, AllHold posed x → ¬request.asked x) :
      Extending goal request s posed (.error fault, s')

/-- A solver that nothing was added to before holds what was asked for. -/
theorem Extends.allHold_iff {request : Request} (extends' : Extends goal request s [] s' posed')
    (x : Variable → Rat) : AllHold posed' x ↔ request.asked x :=
  (extends'.holds x).trans (and_iff_right fun _ member => absurd member List.not_mem_nil)

/-! ### Stretches of additions -/

theorem Extends.trans {first second : Request} {s'' : Simplex Rat} {posed'' : List Posed}
    (one : Extends goal first s posed s' posed') (two : Extends goal second s' posed' s'' posed'') :
    Extends goal (first.and second) s posed s'' posed'' where
  sameGoal := two.sameGoal.trans one.sameGoal
  enrolled := two.enrolled
  shaped := two.shaped
  holds x := by
    rw [two.holds, one.holds, and_assoc]
    rfl
  known v := by
    rw [two.known, one.known, or_assoc]
    rfl
  basic v kept := by
    rcases kept with before | entered | later
    · exact two.basic v (.inl (one.basic v (.inl before)))
    · exact two.basic v (.inl (one.basic v (.inr entered)))
    · exact two.basic v (.inr later)
  needed := by
    rcases two.needed with needed | rfl
    · exact .inl needed
    · exact one.needed
  tags q member := by
    rcases two.tags q member with before | tagged
    · exact (one.tags q before).imp_right .inl
    · exact .inr (.inr tagged)

theorem Enrolled.extends_self (enrolled : s.Enrolled posed goal) (shaped : s.tableau.Shaped) :
    Extends goal .nothing s posed s posed where
  sameGoal := rfl
  enrolled := enrolled
  shaped := shaped
  holds _ := (and_true _).symm.to_iff
  known _ := (or_false _).symm.to_iff
  basic _ kept := kept.resolve_right id
  needed := .inr rfl
  tags _ := .inl

/-- One stretch after another. -/
theorem Extending.andThen {first second : Request} {x : Step Rat (Simplex Rat) Unit}
    {next : Unit → Step Rat (Simplex Rat) Unit} (one : Extending goal first s posed (x.run s))
    (two : ∀ s' posed', Extends goal first s posed s' posed' →
      Extending goal second s' posed' ((next ()).run s')) :
    Extending goal (first.and second) s posed ((x >>= next).run s) := by
  generalize ran : x.run s = ended at one
  cases one with
  | refused infeasible contradicts =>
      rw [Step.run_bind_of_error ran]
      exact .refused infeasible fun x holds asked => contradicts x holds asked.1
  | @extended s' posed' extends' =>
      have rest := two s' posed' extends'
      rw [Step.run_bind_of_ok ran]
      generalize (next ()).run s' = last at rest
      cases rest with
      | extended extends'' => exact .extended (extends'.trans extends'')
      | refused infeasible contradicts =>
          exact .refused infeasible fun x holds asked =>
            contradicts x ((extends'.holds x).2 ⟨holds, asked.1⟩) asked.2

/-! ### Constraints -/

/-- A constraint asks to be satisfied, and names the variables that its sides do not cancel. -/
def Request.ofConstraints (constraints : List (Constraint Rat)) : Request where
  asked x := ∀ c ∈ constraints, c.Holds x
  named v := ∃ c ∈ constraints, c.left.net v ≠ c.right.net v
  entered _ := False
  tagged tag := ∃ c ∈ constraints, c.tag = tag

theorem Request.ofConstraints_nil : Request.ofConstraints [] = .nothing := by
  simp [Request.ofConstraints, Request.nothing]

theorem Request.ofConstraints_cons (c : Constraint Rat) (rest : List (Constraint Rat)) :
    Request.ofConstraints (c :: rest) = (Request.ofConstraints [c]).and (.ofConstraints rest) := by
  simp [Request.ofConstraints, Request.and]

theorem Enrolled.extending (enrolled : s.Enrolled posed goal) (shaped : s.tableau.Shaped)
    (new : ∀ q ∈ posed, q.constraint.tag ≠ c.tag) (required : c.priority = .required)
    (below : ∀ n, c.tag = .made n → n < s.nextMade) :
    Extending goal (.ofConstraints [c]) s posed ((add c).run s) := by
  have adding := enrolled.adding new required below
  generalize (add c).run s = ended at adding
  cases adding with
  | refused reason =>
      obtain ⟨infeasible, contradicts⟩ := reason shaped
      exact .refused infeasible fun x holds asked =>
        contradicts x holds (asked c (List.mem_singleton_self c))
  | @enrolled column s' sameGoal sameMade needed enrolled' inserted restricted =>
      refine .extended ⟨sameGoal, enrolled', inserted.shaped shaped, fun x => ?_, fun v => ?_,
        fun v kept => ?_, .inl needed, fun q member => ?_⟩
      · have own : (Request.ofConstraints [c]).asked x ↔ c.Holds x := List.forall_mem_singleton
        rw [AllHold, List.forall_mem_cons, own]
        exact and_comm
      · rw [mem_scope_enrolled enrolled.exact inserted restricted]
        exact or_congr_right (by simp [Request.ofConstraints])
      · exact inserted.externals _ rfl (kept.resolve_right id)
      · rcases List.mem_cons.1 member with rfl | before
        · exact .inr ⟨c, List.mem_singleton_self c, rfl⟩
        · exact .inl before

/-- Constraints with tags of their own are added one after another. -/
theorem Enrolled.extending_forEach {constraints : List (Constraint Rat)}
    (enrolled : s.Enrolled posed goal) (shaped : s.tableau.Shaped)
    (new : ∀ c ∈ constraints, ∀ q ∈ posed, q.constraint.tag ≠ c.tag)
    (nodup : (constraints.map (·.tag)).Nodup)
    (required : ∀ c ∈ constraints, c.priority = .required)
    (given : ∀ c ∈ constraints, ∃ n, c.tag = .given n) :
    Extending goal (.ofConstraints constraints) s posed ((Step.forEach constraints add).run s) := by
  induction constraints generalizing s posed with
  | nil =>
      rw [Request.ofConstraints_nil]
      exact .extended (enrolled.extends_self shaped)
  | cons c rest ih =>
      obtain ⟨notInRest, nodupRest⟩ := List.nodup_cons.1 nodup
      have below : ∀ n, c.tag = .made n → n < s.nextMade := fun n made => by
        obtain ⟨m, own⟩ := given c List.mem_cons_self
        rw [own] at made
        cases made
      have first := enrolled.extending shaped (new c List.mem_cons_self)
        (required c List.mem_cons_self) below
      rw [Request.ofConstraints_cons]
      rw [show Step.forEach (c :: rest) add = (add c >>= fun _ => Step.forEach rest add) from rfl]
      refine first.andThen fun s' posed' extends' => ?_
      refine ih extends'.enrolled extends'.shaped (fun d inRest q member => ?_) nodupRest
        (fun d inRest => required d (List.mem_cons_of_mem _ inRest))
        fun d inRest => given d (List.mem_cons_of_mem _ inRest)
      rcases extends'.tags q member with before | ⟨e, isFirst, tagged⟩
      · exact new d (List.mem_cons_of_mem _ inRest) q before
      · rw [List.mem_singleton.1 isFirst] at tagged
        exact fun same => notInRest (List.mem_map.2 ⟨d, inRest, (tagged.trans same).symm⟩)

/-! ### Variables that are not negative -/

/-- The constraint that a variable is not negative. -/
def nonnegative (n : Nat) (v : Variable) : Constraint Rat where
  tag := .made n
  left := .variable v
  comparator := .ge
  right := .constant 0

/-- The variables of a kind are asked not to be negative, and become basic. -/
def Request.nonnegative (named : Variable → Prop) : Request where
  asked x := ∀ v, named v → 0 ≤ x v
  named v := named v
  entered v := named v
  tagged tag := ∃ v, named v ∧ ∃ n, tag = (Simplex.nonnegative n v).tag

/-- The variables of a list are asked not to be negative. -/
def Request.ofVariables (unknowns : List Variable) : Request := .nonnegative (· ∈ unknowns)

theorem Request.ofVariables_nil : Request.ofVariables [] = .nothing := by
  simp [Request.ofVariables, Request.nonnegative, Request.nothing]

theorem Request.ofVariables_cons (v : Variable) (rest : List Variable) :
    Request.ofVariables (v :: rest) = (Request.ofVariables [v]).and (.ofVariables rest) := by
  simp [Request.ofVariables, Request.nonnegative, Request.and]

theorem net_nonnegative {n : Nat} :
    (nonnegative n v).left.net w ≠ (nonnegative n v).right.net w ↔ w = v := by
  change (if v = w then (1 : Rat) else 0) ≠ 0 ↔ _
  split
  · next same => simp [same]
  · next different => simp [Ne.symm different]

/-- A variable outside the basis is in terms of itself alone. -/
theorem contains_reduced_nonnegative (exact : s.tableau.Exact) {n : Nat}
    (outside : s.tableau.rows.get? (.external v) = none) :
    (s.tableau.reduced (nonnegative n v)).terms.contains (.external w) = true ↔ w = v := by
  have expresses := exact.expresses_reduced (nonnegative n v)
  have value (σ : Column → Rat) (holds : s.tableau.Holds σ) :
      (s.tableau.reduced (nonnegative n v)).eval σ = σ (.external v) := by
    rw [expresses.value σ holds, Row.eval_residual]
    change 1 * (σ (.external v) - 0) = _
    ring
  have constant : (s.tableau.reduced (nonnegative n v)).constant = 0 := by
    have zero := value _ exact.holds_basicSolution
    rw [basicSolution_of_not_basic outside] at zero
    rw [← zero, ← Row.eval_zero]
    refine Row.eval_congr fun c nonzero => ?_
    rw [basicSolution_of_not_basic (expresses.nonbasic c (Row.contains_of_coefficient nonzero))]
  -- Along the ray of a variable outside the basis only that variable changes among those outside.
  have coefficient (outsideW : s.tableau.rows.get? (.external w) = none) :
      (s.tableau.reduced (nonnegative n v)).coefficient (.external w) =
        s.tableau.ray (.external w) 1 (.external v) := by
    rw [← value _ (exact.holds_ray (.external w) 1)]
    have same : (s.tableau.reduced (nonnegative n v)).eval (s.tableau.ray (.external w) 1) =
        (s.tableau.reduced (nonnegative n v)).eval (Function.update (fun _ => 0) (.external w) 1) :=
      Row.eval_congr fun c nonzero => by
        rw [ray, extend_of_not_basic
          (expresses.nonbasic c (Row.contains_of_coefficient nonzero))]
    rw [same, Row.eval_update_assignment, Row.eval_zero, constant]
    ring
  constructor
  · intro present
    by_contra different
    have outsideW := expresses.nonbasic _ present
    have zero := coefficient outsideW
    rw [ray_of_not_basic outside (by simpa using Ne.symm different)] at zero
    obtain ⟨k, found⟩ := Sorted.Map.contains_iff.1 present
    rw [Row.coefficient_of_get? found] at zero
    exact expresses.nonzero _ (zero ▸ found)
  · rintro rfl
    refine Row.contains_of_coefficient ?_
    rw [coefficient outside, ray_self outside]
    exact one_ne_zero

theorem Enrolled.extending_nonnegative (enrolled : s.Enrolled posed goal)
    (shaped : s.tableau.Shaped) (v : Variable) :
    Extending goal (.ofVariables [v]) s posed ((addNonnegative v).run s) := by
  let s₁ : Simplex Rat := { s with nextMade := s.nextMade + 1 }
  have ran : (addNonnegative v).run s = (add (nonnegative s.nextMade v)).run s₁ :=
    Step.run_bind_of_ok (x := freshTag) rfl
  have enrolled₁ : s₁.Enrolled posed goal :=
    ⟨⟨enrolled.carries.represents, enrolled.carries.family, enrolled.carries.fresh,
      enrolled.carries.below⟩, enrolled.registered, enrolled.required,
      fun p member n tagged => (enrolled.made p member n tagged).trans (Nat.lt_succ_self _)⟩
  have adding := enrolled₁.adding (c := nonnegative s.nextMade v)
    (fun q member tagged => Nat.lt_irrefl _ (enrolled.made q member _ tagged)) rfl
    fun n tagged => by
      cases tagged
      exact Nat.lt_succ_self _
  rw [ran]
  generalize (add (nonnegative s.nextMade v)).run s₁ = ended at adding
  cases adding with
  | refused reason =>
      obtain ⟨infeasible, contradicts⟩ := reason shaped
      exact .refused infeasible fun x holds asked =>
        contradicts x holds (asked v (List.mem_singleton_self v))
  | @enrolled column s' sameGoal sameMade needed enrolled' inserted restricted =>
      have kept (w : Variable) (before : (s.tableau.rows.get? (.external w)).isSome) :
          (s'.tableau.rows.get? (.external w)).isSome := inserted.externals _ rfl before
      refine .extended ⟨sameGoal, enrolled', inserted.shaped shaped, fun x => ?_, fun w => ?_,
        fun w basic => ?_, .inl needed, fun q member => ?_⟩
      · have own : (Request.ofVariables [v]).asked x ↔ 0 ≤ x v := List.forall_mem_singleton
        rw [AllHold, List.forall_mem_cons, own]
        exact and_comm
      · rw [mem_scope_enrolled enrolled.exact inserted restricted]
        change _ ∨ (nonnegative _ v).left.net w ≠ (nonnegative _ v).right.net w ↔ _ ∨ w ∈ [v]
        rw [net_nonnegative, List.mem_singleton]
      · rcases basic with before | entered
        · exact kept w before
        · obtain rfl := List.mem_singleton.1 entered
          cases outside : s.tableau.rows.get? (.external w) with
          | some row => exact kept w (by rw [outside]; rfl)
          | none =>
              have only {u : Variable} := contains_reduced_nonnegative (w := u)
                (n := s.nextMade) enrolled.exact outside
              have inRow : (s₁.posedRow (.required (nonnegative s.nextMade w) column)).terms.contains
                  (.external w) = true := contains_posedRow.2 (.inr (only.2 rfl))
              obtain ⟨c, external, present, inside⟩ := inserted.entered ⟨_, rfl, inRow⟩
              cases c with
              | symbol _ => cases external
              | external u =>
                  rcases contains_posedRow.1 present with own | reduced
                  · rw [Posed.columns_required, List.mem_singleton] at own
                    subst own
                    cases restricted
                  · obtain rfl := only.1 reduced
                    exact inside
      · rcases List.mem_cons.1 member with rfl | before
        · exact .inr ⟨v, List.mem_singleton_self v, s.nextMade, rfl⟩
        · exact .inl before

/-- Variables are made nonnegative one after another. -/
theorem Enrolled.extending_variables {unknowns : List Variable} (enrolled : s.Enrolled posed goal)
    (shaped : s.tableau.Shaped) : Extending goal (.ofVariables unknowns) s posed
      ((Step.forEach unknowns addNonnegative).run s) := by
  induction unknowns generalizing s posed with
  | nil =>
      rw [Request.ofVariables_nil]
      exact .extended (enrolled.extends_self shaped)
  | cons v rest ih =>
      rw [Request.ofVariables_cons]
      rw [show Step.forEach (v :: rest) addNonnegative =
        (addNonnegative v >>= fun _ => Step.forEach rest addNonnegative) from rfl]
      exact (enrolled.extending_nonnegative shaped v).andThen
        fun s' posed' extends' => ih extends'.enrolled extends'.shaped

end SoftSimplex.Simplex
