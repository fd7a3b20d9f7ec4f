import SoftSimplex.Proofs.Simplex.Stranding
import SoftSimplex.Proofs.Solver.Calls

/-!
Failed calls that are not rolled back.

A solver whose failed additions were not rolled back carries leftovers beside its constraints (`Laden`).
All that they ask for is one side of every equation that the first phase refused (`Leaves`), but they
stay. So after a later call that adds or takes back a constraint the solution is best among the
assignments that lie on these sides (`refusal_spec`), which is not what it would be if the equation had
never been tried (`refusal_remembered`).
-/

namespace SoftSimplex

variable {config : Config Rat} {kept left left' : List (Constraint Rat)} {posed leftovers : List Posed}
  {x : Variable → Rat} {c : Constraint Rat} {reserved : List Tag}

theorem Tag.exists_not_mem (tags : List Tag) : ∃ tag, tag ∉ tags := by
  have infinite : Infinite Tag := Infinite.of_injective Tag.given fun _ _ => Tag.given.inj
  obtain ⟨tag, new⟩ := Infinite.exists_notMem_finset tags.toFinset
  exact ⟨tag, fun member => new (List.mem_toFinset.2 member)⟩

/-- An assignment that misses an equation lies on one of its sides only. -/
theorem Constraint.side_unique {first second : Comparator} (equation : c.comparator = .eq)
    (misses : ¬c.Holds x) (firstUnequal : first ≠ .eq) (secondUnequal : second ≠ .eq)
    (onFirst : { c with comparator := first }.Holds x)
    (onSecond : { c with comparator := second }.Holds x) : first = second := by
  rw [Constraint.Holds, equation] at misses
  unfold Constraint.Holds at onFirst onSecond
  cases first with
  | eq => exact absurd rfl firstUnequal
  | le =>
      cases second with
      | eq => exact absurd rfl secondUnequal
      | le => rfl
      | ge => exact absurd (le_antisymm onFirst onSecond) misses
  | ge =>
      cases second with
      | eq => exact absurd rfl secondUnequal
      | le => exact absurd (le_antisymm onSecond onFirst) misses
      | ge => rfl

/-- Neither what a caller stated nor what costs nothing has a negative weight. -/
theorem Config.Stated.weighted_append (stated : config.Stated kept posed) (settings : config.Exact)
    (free : ∀ q ∈ leftovers, q.markers.weight.getD 0 = 0) : Weighted (leftovers ++ posed) := by
  refine List.forall_mem_append.2 ⟨fun q member w weighs => ?_, fun p member w weighs => ?_⟩
  · have nothing := free q member
    rw [weighs] at nothing
    exact nothing.ge
  · rw [stated.weights p member] at weighs
    exact (settings.weight_pos _ w weighs).le

namespace Solver

variable {s s' : Solver Rat} {call : Call} {answer : Except (Fault Rat) Unit}

/-! ### What calls leave -/

/-- The step of a call that is not rolled back if it fails. -/
def Call.bare : Call → Step Rat (Solver Rat) Unit
  | .add c => Solver.add c
  | call => call.step

/-- What a call leaves behind, beside the constraints that are registered: that side of an equation which
was refused by the first phase on which all assignments lie that are left. -/
inductive Leaves (kept left : List (Constraint Rat)) :
    Call → Except (Fault Rat) Unit → List (Constraint Rat) → Prop where
  | nothing {call : Call} {answer : Except (Fault Rat) Unit}
      (other : ∀ c, call = .add c → c.comparator = .eq → answer ≠ .error .infeasible) :
      Leaves kept left call answer left
  | side {c : Constraint Rat} {comparator : Comparator} (equation : c.comparator = .eq)
      (unequal : comparator ≠ .eq)
      (lies : ∀ x, Satisfies x (left ++ kept) → { c with comparator }.Holds x) :
      Leaves kept left (.add c) (.error .infeasible) ({ c with comparator } :: left)

/-- A solver was reached by calls that were not rolled back, and these constraints are registered or
left behind. -/
inductive Trail (config : Config Rat) :
    List (Constraint Rat) → List (Constraint Rat) → Solver Rat → Prop where
  | created : Trail config [] [] (create config)
  | called {kept left left' : List (Constraint Rat)} {s s' : Solver Rat}
      {answer : Except (Fault Rat) Unit} (before : Trail config kept left s) (call : Call)
      (admitted : call.Admitted kept) (ran : call.bare.run s = (answer, s'))
      (leaves : Leaves kept left call answer left') :
      Trail config (call.survivors kept answer) left' s'

/-! ### Solvers with leftovers -/

/-- A solver carries leftovers beside the constraints of a caller. -/
structure Laden (config : Config Rat) (kept left : List (Constraint Rat))
    (posed leftovers : List Posed) (s : Solver Rat) : Prop where
  carries : ∃ k, s.simplex.Carries (leftovers ++ posed) fun σ => k + costs (leftovers ++ posed) σ
  shaped : s.simplex.tableau.Shaped
  registered : ∀ tag, s.simplex.registered.get? tag =
    (posed.find? fun p => p.constraint.tag = tag).map fun p => ⟨p.constraint, p.markers.main⟩
  installed : ∀ tag, s.installed.get? tag =
    (posed.find? fun p => p.constraint.tag = tag).map (·.toInstalled)
  stated : config.Stated kept posed
  /-- Leftovers cost nothing, and ask for what is left behind. -/
  free : ∀ q ∈ leftovers, q.markers.weight.getD 0 = 0
  asked : ∀ x, MeetsRequired leftovers x ↔ Satisfies x left
  hard : ∀ d ∈ left, d.priority = .required
  config_eq : s.config = config
  sessions : s.sessions = []
  repaired : s.needsRepair = false

/-- The tableau of a solver is optimal. -/
def Content (s : Solver Rat) : Prop :=
  s.simplex.tableau.Optimized ∧ s.simplex.needsOptimize = false

namespace Laden

variable (settings : config.Exact) (laden : Laden config kept left posed leftovers s)
include laden

theorem stored : ∃ goal, s.simplex.tableau.rows.get? .objective = some goal := by
  obtain ⟨k, carries⟩ := laden.carries
  exact Option.isSome_iff_exists.1 carries.represents.stored

theorem penalties_eq (x : Variable → Rat) : penalties (leftovers ++ posed) x = config.loss kept x := by
  have nothing : penalties leftovers x = 0 := by
    refine List.sum_eq_zero fun value listed => ?_
    obtain ⟨q, member, rfl⟩ := List.mem_map.1 listed
    rw [Posed.penalty, laden.free q member, zero_mul]
  rw [penalties_append, nothing, zero_add, laden.stated.penalties_eq]

theorem loss_eq (x : Variable → Rat) : config.loss (left ++ kept) x = config.loss kept x := by
  rw [Config.loss_append, config.loss_required laden.hard, zero_add]

theorem has_iff : s.has c = true ↔ ∃ d ∈ kept, d.tag = c.tag := by
  rw [has, Sorted.Map.contains, laden.installed, Option.isSome_map, List.find?_isSome,
    laden.stated.constraints]
  simp only [decide_eq_true_eq, List.mem_map, exists_exists_and_eq_and]

include settings

theorem meetsRequired_iff (x : Variable → Rat) :
    MeetsRequired (leftovers ++ posed) x ↔ Satisfies x (left ++ kept) := by
  rw [meetsRequired_append, satisfies_append, laden.asked, laden.stated.meetsRequired_iff settings]

theorem weighted : Weighted (leftovers ++ posed) :=
  laden.stated.weighted_append settings laden.free

theorem exists_satisfies : ∃ x, Satisfies x (left ++ kept) := by
  obtain ⟨k, carries⟩ := laden.carries
  exact ⟨_, (laden.meetsRequired_iff settings _).1
    (carries.represents.meetsRequired carries.family laden.shaped)⟩

/-- The values of an optimal tableau are best among what is left. -/
theorem optimal (content : s.Content) : config.Optimal (left ++ kept) s.simplex.values.value := by
  obtain ⟨k, carries⟩ := laden.carries
  have same : s.simplex.values.value = onVariables s.simplex.tableau.basicSolution :=
    funext fun v => Simplex.value_values carries.represents.toWellFormed v
  rw [same]
  refine ⟨(laden.meetsRequired_iff settings _).1
    (carries.represents.meetsRequired carries.family laden.shaped), fun y satisfies => ?_⟩
  have least := carries.represents.optimal carries.family (laden.weighted settings) laden.shaped content.1
    ((laden.meetsRequired_iff settings y).2 satisfies)
  rwa [laden.penalties_eq, laden.penalties_eq, ← laden.loss_eq, ← laden.loss_eq] at least

omit settings in
theorem run_solve (content : s.Content) : ∃ s', solve.run s = (.ok s.simplex.values, s') := by
  obtain ⟨goal, found⟩ := laden.stored
  exact ⟨_, run_solve_of_optimize laden.repaired (Simplex.run_optimize_of_not_needed content.2) found⟩

omit settings in
/-- What a solver carries after its tableau changed, where its records did not. -/
theorem changed {leftovers' : List Posed} (same : s.Same s')
    (registered : s'.simplex.registered = s.simplex.registered) (shaped : s'.simplex.tableau.Shaped)
    (carries : ∃ k, s'.simplex.Carries (leftovers' ++ posed) fun σ =>
      k + costs (leftovers' ++ posed) σ)
    (free : ∀ q ∈ leftovers', q.markers.weight.getD 0 = 0)
    (asked : ∀ x, MeetsRequired leftovers' x ↔ Satisfies x left')
    (hard : ∀ d ∈ left', d.priority = .required) : Laden config kept left' posed leftovers' s' where
  carries := carries
  shaped := shaped
  registered tag := (congrArg (·.get? tag) registered).trans (laden.registered tag)
  installed tag := (congrArg (·.get? tag) same.installed).trans (laden.installed tag)
  stated := laden.stated
  free := free
  asked := asked
  hard := hard
  config_eq := same.config.trans laden.config_eq
  sessions := same.sessions.trans laden.sessions
  repaired := same.needsRepair.trans laden.repaired

/-- Solving changes nothing that counts. -/
theorem solving : ∃ values s', solve.run s = (.ok values, s') ∧
    Laden config kept left posed leftovers s' := by
  obtain ⟨k, carries⟩ := laden.carries
  have answers : ∃ optimum, Simplex.optimize.run s.simplex = (.ok (), optimum) ∧
      s.simplex.Turned optimum ∧ optimum.tableau.Shaped ∧
        optimum.Carries (leftovers ++ posed) fun σ => k + costs (leftovers ++ posed) σ := by
    cases needed : s.simplex.needsOptimize with
    | false =>
        exact ⟨_, Simplex.run_optimize_of_not_needed needed, ⟨rfl, rfl, rfl, rfl, .refl⟩, laden.shaped,
          carries⟩
    | true =>
        obtain ⟨optimum, ran, turned, carries', shaped, -, -⟩ :=
          carries.settle (laden.weighted settings) laden.shaped needed
        exact ⟨optimum, ran, turned, shaped, carries'⟩
  obtain ⟨optimum, ran, turned, shaped, carries'⟩ := answers
  obtain ⟨goal, found⟩ := Option.isSome_iff_exists.1 carries'.represents.stored
  exact ⟨_, _, run_solve_of_optimize laden.repaired ran found,
    laden.changed ⟨⟨rfl, rfl, rfl, turned.nextMade⟩, rfl⟩ turned.registered shaped ⟨k, carries'⟩
      laden.free laden.asked laden.hard⟩

/-! ### Adding -/

/-- What adding a constraint comes to. -/
inductive Adding (config : Config Rat) (kept left : List (Constraint Rat)) (posed leftovers : List Posed)
    (s : Solver Rat) (c : Constraint Rat) : Except (Fault Rat) Unit × Solver Rat → Prop where
  | known (registered : ∃ d ∈ kept, d.tag = c.tag) :
      Adding config kept left posed leftovers s c (.error (.constraintExists c), s)
  | added {p : Posed} {s' : Solver Rat} (laden : Laden config (c :: kept) left (p :: posed) leftovers s')
      (content : s'.Content) : Adding config kept left posed leftovers s c (.ok (), s')
  | refused {fault : Fault Rat} {s' : Solver Rat} {left' : List (Constraint Rat)}
      (required : c.priority = .required) (contradicts : ∀ x, Satisfies x (left ++ kept) → ¬c.Holds x)
      (leaves : Leaves kept left (.add c) (.error fault) left')
      (laden : ∀ tag, (∀ r ∈ leftovers ++ posed, r.constraint.tag ≠ tag) → ∃ leftovers',
        (∀ q ∈ leftovers', q ∈ leftovers ∨ q.constraint.tag = tag) ∧
          Laden config kept left' posed leftovers' s') :
      Adding config kept left posed leftovers s c (.error fault, s')

section

variable {s₁ : Solver Rat} {m : Markers Rat} {inner : Simplex Rat} (aside : s.Same s₁)
include laden aside

/-- A constraint that joined is installed once the tableau is optimal. -/
theorem withInstalled (weighs : m.weight = config.weight? c.priority)
    (keeps : inner.registered = s.simplex.registered) (needed : inner.needsOptimize = true)
    (shaped : inner.tableau.Shaped) {k : Rat} (carries : inner.Carries
      (⟨⟨c, m⟩, 0⟩ :: (leftovers ++ posed)) fun σ => k + costs (⟨⟨c, m⟩, 0⟩ :: (leftovers ++ posed)) σ) :
    ∃ optimum, Simplex.optimize.run (inner.register c m.main) = (.ok (), optimum) ∧
      Laden config (c :: kept) left (⟨⟨c, m⟩, 0⟩ :: posed) leftovers (s₁.withInstalled c m optimum) ∧
        (s₁.withInstalled c m optimum).Content := by
  have order : (⟨⟨c, m⟩, 0⟩ :: (leftovers ++ posed) : List Posed).Perm
      (leftovers ++ ⟨⟨c, m⟩, 0⟩ :: posed) := List.perm_middle.symm
  have registers : (inner.register c m.main).Carries (leftovers ++ ⟨⟨c, m⟩, 0⟩ :: posed) fun σ =>
      k + costs (leftovers ++ ⟨⟨c, m⟩, 0⟩ :: posed) σ := by
    have same := (carries.perm order).congr fun σ => by rw [costs_perm order]
    exact ⟨same.represents, same.family, same.fresh, same.below⟩
  have stated := laden.stated.cons (c := c) weighs
  have weighted := stated.weighted_append settings laden.free
  obtain ⟨optimum, ran, turned, carries', shaped', optimized, done⟩ :=
    registers.settle weighted shaped needed
  refine ⟨optimum, ran, ⟨⟨k, carries'⟩, shaped', fun tag => ?_, fun tag => ?_, stated, laden.free,
    laden.asked, laden.hard, aside.config.trans laden.config_eq, aside.sessions.trans laden.sessions,
    aside.needsRepair.trans laden.repaired⟩, optimized, done⟩
  · rw [find?_cons_tag]
    change optimum.registered.get? tag = _
    rw [turned.registered, Simplex.register, Sorted.Map.get?_insert, keeps, laden.registered]
    split <;> rfl
  · rw [find?_cons_tag, Solver.withInstalled, Sorted.Map.get?_insert, aside.installed, laden.installed]
    split <;> rfl

omit settings in
/-- A solver whose tableau was left with a new leftover. -/
theorem withLeftover {q : Posed} (keeps : s.simplex.Keeps inner) (shaped : inner.tableau.Shaped)
    {k : Rat} (carries : inner.Carries (q :: (leftovers ++ posed)) fun σ =>
      k + costs (leftovers ++ posed) σ)
    (free : q.markers.weight.getD 0 = 0)
    (asked : ∀ x, (q.markers.weight = none → q.Met x) ∧ Satisfies x left ↔ Satisfies x left')
    (hard : ∀ d ∈ left', d.priority = .required) :
    Laden config kept left' posed (q :: leftovers) (s₁.withSimplex inner) := by
  have cost (σ : Column → Rat) : q.cost σ = 0 := by
    rw [Posed.cost, free, zero_mul]
  refine laden.changed ⟨⟨aside.config, aside.sessions, aside.needsRepair, keeps.nextMade⟩,
    aside.installed⟩ keeps.registered shaped ⟨k, carries.congr fun σ => ?_⟩
    (List.forall_mem_cons.2 ⟨free, laden.free⟩) (fun x => ?_) hard
  · rw [List.cons_append, costs_cons, cost, zero_add]
  · rw [MeetsRequired, List.forall_mem_cons, ← asked, ← laden.asked]
    rfl

/-- What a refused constraint strands is left behind. -/
theorem refusing {fault : Fault Rat} (keeps : s.simplex.Keeps inner) (shaped : inner.tableau.Shaped)
    (required : c.priority = .required) (contradicts : ∀ x, Satisfies x (left ++ kept) → ¬c.Holds x)
    {k : Rat} (stranding : Simplex.Stranding (leftovers ++ posed)
      (fun σ => k + costs (leftovers ++ posed) σ) c inner fault) :
    Adding config kept left posed leftovers s c (.error fault, s₁.withSimplex inner) := by
  cases stranding with
  | nothing carries =>
      refine .refused required contradicts (.nothing fun d _ _ => by simp) fun tag _ =>
        ⟨leftovers, fun q member => .inl member, ?_⟩
      exact laden.changed ⟨⟨aside.config, aside.sessions, aside.needsRepair, keeps.nextMade⟩,
        aside.installed⟩ keeps.registered shaped ⟨k, carries⟩ laden.free laden.asked laden.hard
  | bound unequal kept' =>
      refine .refused required contradicts (.nothing ?_) fun tag newTag => ?_
      · rintro d same equation
        obtain rfl := Call.add.inj same
        exact absurd equation unequal
      · obtain ⟨q, rfl, weightless, carries⟩ := kept' tag newTag
        refine ⟨q :: leftovers, fun r member => ?_, laden.withLeftover aside keeps shaped carries
          (by rw [weightless]; rfl) (fun x => ?_) laden.hard⟩
        · exact (List.mem_cons.1 member).symm.imp_right fun same => congrArg (·.constraint.tag) same
        · rw [weightless]
          simp
  | @side comparator equation unequal lies kept' =>
      refine .refused required contradicts (.side equation unequal fun x satisfies =>
        lies x ((laden.meetsRequired_iff settings x).2 satisfies)) fun tag newTag => ?_
      obtain ⟨q, rfl, weightless, met, carries⟩ := kept' tag newTag
      refine ⟨q :: leftovers, fun r member => ?_, laden.withLeftover aside keeps shaped carries
        (by rw [weightless]; rfl) (fun x => ?_) (List.forall_mem_cons.2 ⟨required, laden.hard⟩)⟩
      · exact (List.mem_cons.1 member).symm.imp_right fun same => congrArg (·.constraint.tag) same
      · rw [satisfies_cons, met]
        simp [weightless, required]

end

/-- Only a required constraint that contradicts what is left is refused. -/
theorem adding (apart : ∀ q ∈ leftovers, q.constraint.tag ≠ c.tag) :
    Adding config kept left posed leftovers s c ((add c).run s) := by
  cases known : s.has c with
  | true =>
      rw [run_add_of_has known]
      exact .known (laden.has_iff.1 known)
  | false =>
      have new : ∀ q ∈ leftovers ++ posed, q.constraint.tag ≠ c.tag := by
        refine List.forall_mem_append.2 ⟨apart, fun p member tagged => ?_⟩
        rw [laden.has_iff.2 ⟨_, laden.stated.mem_kept member, tagged⟩] at known
        cases known
      have priced := run_price_of_exact (laden.config_eq ▸ settings) c
      rw [laden.config_eq] at priced
      obtain ⟨k, carries⟩ := laden.carries
      obtain ⟨m, s₁, marking, marked⟩ := marked_markedRow carries.represents.toWellFormed
        carries.represents.stored priced
      have posing := carries.posing (p := ⟨⟨c, m⟩, 0⟩) marked.fits rfl new marked.prepared
      rw [run_add_of_new known]
      generalize ran : (Simplex.insertRow (s.freshRow c m) m.columns).run s₁.simplex = ended
      change Simplex.Posing _ _ _ _ _ ((Simplex.insertRow (s.freshRow c m) m.columns).run s₁.simplex)
        at posing
      rw [ran] at posing
      cases posing with
      | @posed inner keeps needed carries' inserted retains still recorded =>
          obtain ⟨optimum, optimized, laden', content⟩ := laden.withInstalled settings marked.same
            marked.weight keeps.registered needed ((retains laden.shaped.steady).shaped laden.shaped)
            carries'.costs_cons
          rw [run_install_of_ok marking ran optimized]
          exact .added laden' content
      | @refused fault inner missed reason =>
          obtain ⟨-, contradicts⟩ := reason laden.shaped
          have refutes (x : Variable → Rat) (satisfies : Satisfies x (left ++ kept)) :
              m.weight = none ∧ ¬c.Holds x :=
            required_of_contradicts contradicts ((laden.meetsRequired_iff settings x).2 satisfies)
          obtain ⟨x₀, satisfies₀⟩ := laden.exists_satisfies settings
          have free := (refutes x₀ satisfies₀).1
          have wanted : c.priority = .required := by
            rw [marked.weight, settings.weight_eq_none_iff] at free
            exact free
          obtain ⟨keeps, shaped, stranding⟩ :=
            carries.stranding (p := ⟨⟨c, m⟩, 0⟩) marked.fits rfl marked.prepared free wanted laden.shaped ran
          rw [run_install_of_refused marking ran]
          exact laden.refusing settings marked.same keeps shaped wanted
            (fun x satisfies => (refutes x satisfies).2) stranding

/-! ### Taking back -/

/-- What taking a constraint back comes to, if it is no required equation. -/
theorem removing (admitted : (Call.remove c).Admitted kept)
    (apart : ∀ q ∈ leftovers, q.constraint.tag ≠ c.tag) :
    (∃ s', (remove c).run s = (.ok (), s') ∧ s'.Content ∧
        Laden config (kept.filter fun d => d.tag ≠ c.tag) left (withoutTag posed c.tag) leftovers s') ∨
      (remove c).run s = (.error (.constraintNotFound c), s) := by
  by_cases known : ∃ p ∈ posed, p.constraint.tag = c.tag
  · obtain ⟨p, member, tagged⟩ := known
    obtain ⟨k, carries⟩ := laden.carries
    have family := carries.family.sublist (List.sublist_append_right leftovers posed)
    have inside : p ∈ leftovers ++ posed := List.mem_append_right _ member
    have search := family.find?_tag member
    rw [tagged] at search
    have reset := resetStays_of_no_sessions laden.sessions
    obtain ⟨inner, removed, ran⟩ := run_uninstall (s := s) (c := c) (p := p)
      (reset.symm ▸ carries.represents.toWellFormed) (reset.symm ▸ carries.represents.stored)
      (family.fits p member) (by rw [laden.installed, search]; rfl)
      (by rw [laden.registered, search]; rfl)
    rw [reset] at removed ran
    have registered := removed.registered
    rw [← tagged] at removed
    have spares : s.simplex.Spares p := fun dummy =>
      absurd dummy (laden.stated.main_not_dummy settings member (family.fits p member)
        (admitted _ (laden.stated.mem_kept member) tagged))
    have shaped := (carries.steady_withdrawn inside laden.shaped.steady spares removed).2 laden.shaped
    obtain ⟨carries', -, -⟩ := carries.withdrawn inside removed
    rw [tagged, withoutTag_append, withoutTag_of_apart apart] at carries'
    have stated := laden.stated.withoutTag c.tag
    obtain ⟨optimum, optimized, turned, carries'', shaped', least, done⟩ :=
      carries'.settle (stated.weighted_append settings laden.free) shaped removed.needed
    rw [optimized] at ran
    refine .inl ⟨_, ran, ⟨least, done⟩, ⟨k, carries''⟩, shaped', fun tag => ?_, fun tag => ?_, stated,
      laden.free, laden.asked, laden.hard, laden.config_eq, laden.sessions, laden.repaired⟩
    · change optimum.registered.get? tag = _
      rw [turned.registered, find?_withoutTag]
      change inner.registered.get? tag = _
      rw [registered, Sorted.Map.get?_erase]
      split
      · rfl
      · exact laden.registered tag
    · rw [find?_withoutTag, Solver.withErased, Sorted.Map.get?_erase, laden.installed]
      split <;> rfl
  · have absent : s.installed.get? c.tag = none := by
      rw [laden.installed, List.find?_eq_none.2 fun p member => by
        simpa using fun tagged => known ⟨p, member, tagged⟩]
      rfl
    refine .inr ?_
    rw [remove, uninstall, Step.run_bind_get, absent]
    rfl

end Laden

/-! ### Runs of calls -/

/-- What a call leaves behind is determined by its answer. -/
theorem Leaves.unique {first second : List (Constraint Rat)} (one : Leaves kept left call answer first)
    (other : Leaves kept left call answer second) (consistent : ∃ x, Satisfies x (left ++ kept))
    (contradicts : ∀ c, call = .add c → answer = .error .infeasible →
      ∀ x, Satisfies x (left ++ kept) → ¬c.Holds x) : first = second := by
  cases one with
  | nothing none =>
      cases other with
      | nothing _ => rfl
      | side equation _ _ => exact absurd rfl (none _ rfl equation)
  | side equation unequal lies =>
      cases other with
      | nothing none => exact absurd rfl (none _ rfl equation)
      | side _ unequal' lies' =>
          obtain ⟨x, satisfies⟩ := consistent
          rw [Constraint.side_unique equation (contradicts _ rfl rfl x satisfies) unequal unequal'
            (lies x satisfies) (lies' x satisfies)]

/-- A call that answers leaves nothing behind. -/
theorem Leaves.eq_of_ok (leaves : Leaves kept left call (.ok ()) left') : left' = left := by
  cases leaves with
  | nothing _ => rfl

/-- A solver carries leftovers, and their tags can be chosen apart from any that are reserved. -/
def Encumbered (config : Config Rat) (kept left : List (Constraint Rat)) (s : Solver Rat) : Prop :=
  ∀ reserved : List Tag, ∃ posed leftovers, Laden config kept left posed leftovers s ∧
    ∀ q ∈ leftovers, q.constraint.tag ∉ reserved

/-- What a call comes to, with a solver that carries leftovers. -/
structure Called (config : Config Rat) (kept left : List (Constraint Rat)) (reserved : List Tag)
    (call : Call) (ended : Except (Fault Rat) Unit × Solver Rat) : Prop where
  leaves : ∃ left', Leaves kept left call ended.1 left' ∧ ∃ posed leftovers,
    Laden config (call.survivors kept ended.1) left' posed leftovers ended.2 ∧
      ∀ q ∈ leftovers, q.constraint.tag ∉ reserved
  content : call ≠ .solve → ended.1 = .ok () → ended.2.Content
  contradicts : ∀ c, call = .add c → ∀ fault, ended.1 = .error fault → fault.isInfeasible = true →
    c.priority = .required ∧ ∀ x, Satisfies x (left ++ kept) → ¬c.Holds x

namespace Encumbered

variable (settings : config.Exact) (encumbered : Encumbered config kept left s)
include settings encumbered

theorem exists_satisfies : ∃ x, Satisfies x (left ++ kept) := by
  obtain ⟨posed, leftovers, laden, -⟩ := encumbered []
  exact laden.exists_satisfies settings

/-- Every call leaves at most one side behind, fails only where it must, and is followed by the best
solution if it changed what is registered. -/
theorem calling (admitted : call.Admitted kept) (reserved : List Tag) :
    Called config kept left reserved call (call.bare.run s) := by
  cases call with
  | add c =>
      obtain ⟨posed, leftovers, laden, apart⟩ := encumbered (c.tag :: reserved)
      have new (q : Posed) (member : q ∈ leftovers) : q.constraint.tag ∉ reserved := fun inside =>
        apart q member (List.mem_cons_of_mem _ inside)
      have adding := laden.adding settings (c := c) fun q member same =>
        apart q member (same ▸ List.mem_cons_self)
      change Called config kept left reserved _ ((add c).run s)
      generalize (add c).run s = ended at adding
      cases adding with
      | known _ =>
          refine ⟨⟨left, .nothing fun d _ _ => by simp, posed, leftovers, laden, new⟩, fun _ same => ?_,
            fun d _ fault same infeasible => ?_⟩
          · cases same
          · cases same
            cases infeasible
      | added laden' content =>
          refine ⟨⟨left, .nothing fun d _ _ => by simp, _, leftovers, laden', new⟩, fun _ _ => content,
            fun d _ fault same _ => ?_⟩
          cases same
      | refused required contradicts leaves laden' =>
          obtain ⟨tag, fresh⟩ := Tag.exists_not_mem
            (reserved ++ (leftovers ++ posed).map (·.constraint.tag))
          rw [List.mem_append, not_or] at fresh
          obtain ⟨leftovers', source, laden''⟩ := laden' tag fun r member same =>
            fresh.2 (List.mem_map.2 ⟨r, member, same⟩)
          refine ⟨⟨_, leaves, posed, leftovers', laden'', fun q member inside => ?_⟩, fun _ same => ?_,
            fun d same _ _ _ => ?_⟩
          · rcases source q member with old | rfl
            · exact new q old inside
            · exact fresh.1 inside
          · cases same
          · obtain rfl := Call.add.inj same
            exact ⟨required, contradicts⟩
  | remove c =>
      obtain ⟨posed, leftovers, laden, apart⟩ := encumbered (c.tag :: reserved)
      have new (q : Posed) (member : q ∈ leftovers) : q.constraint.tag ∉ reserved := fun inside =>
        apart q member (List.mem_cons_of_mem _ inside)
      have removing := laden.removing settings admitted fun q member same =>
        apart q member (same ▸ List.mem_cons_self)
      change Called config kept left reserved _ ((remove c).run s)
      rcases removing with ⟨s'', removed, content, laden'⟩ | missing
      · rw [removed]
        refine ⟨⟨left, .nothing fun d same => ?_, _, leftovers, laden', new⟩, fun _ _ => content,
          fun d same => ?_⟩
        · cases same
        · cases same
      · rw [missing]
        refine ⟨⟨left, .nothing fun d same => ?_, posed, leftovers, laden, new⟩, fun _ same => ?_,
          fun d same => ?_⟩
        · cases same
        · cases same
        · cases same
  | solve =>
      obtain ⟨posed, leftovers, laden, apart⟩ := encumbered reserved
      obtain ⟨values, s'', solved, laden'⟩ := laden.solving settings
      have ran : Call.solve.bare.run s = (.ok (), s'') := Step.run_bind_of_ok solved
      rw [ran]
      refine ⟨⟨left, .nothing fun d same => ?_, posed, leftovers, laden', apart⟩,
        fun other => absurd rfl other, fun d same => ?_⟩
      · cases same
      · cases same

/-- What a call leaves behind is determined by its answer. -/
theorem leaves_unique (admitted : call.Admitted kept) (ran : call.bare.run s = (answer, s'))
    {first second : List (Constraint Rat)} (one : Leaves kept left call answer first)
    (other : Leaves kept left call answer second) : first = second := by
  have called := encumbered.calling settings admitted []
  rw [ran] at called
  exact one.unique other (encumbered.exists_satisfies settings) fun c same infeasible =>
    (called.contradicts c same _ infeasible rfl).2

/-- A solver carries what is left after a call, too. -/
theorem called (admitted : call.Admitted kept) (ran : call.bare.run s = (answer, s'))
    (leaves : Leaves kept left call answer left') :
    Encumbered config (call.survivors kept answer) left' s' := by
  intro reserved
  have called := encumbered.calling settings admitted reserved
  rw [ran] at called
  obtain ⟨left'', leaves', laden⟩ := called.leaves
  obtain rfl := encumbered.leaves_unique settings admitted ran leaves leaves'
  exact laden

end Encumbered

theorem Stands.laden (stands : Stands config kept posed s) : Laden config kept [] posed [] s where
  carries := stands.priced.carries
  shaped := stands.settled.shaped
  registered := stands.priced.registered
  installed := stands.installed
  stated := stands.stated
  free _ member := absurd member List.not_mem_nil
  asked _ := iff_of_true (fun _ member => absurd member List.not_mem_nil)
    fun _ member => absurd member List.not_mem_nil
  hard _ member := absurd member List.not_mem_nil
  config_eq := stands.config_eq
  sessions := stands.sessions
  repaired := stands.repaired

/-- A solver that was reached by calls carries what they left behind. -/
theorem Trail.encumbered (settings : config.Exact) (trail : Trail config kept left s) :
    Encumbered config kept left s := by
  induction trail with
  | created =>
      obtain ⟨posed, stands⟩ := Reached.created.stands settings
      exact fun reserved => ⟨posed, [], stands.laden, fun _ member => absurd member List.not_mem_nil⟩
  | called before call admitted ran leaves ih => exact ih.called settings admitted ran leaves

/-- Where failed calls are not rolled back, an equation that the first phase refuses leaves that one of its
sides behind on which all assignments lie that are left, and no other call leaves anything. Only what
contradicts the required constraints and these sides is refused, and after a call that adds or takes back a
constraint the solution is best among the assignments that satisfy both. -/
theorem refusal_spec (settings : config.Exact) (trail : Trail config kept left s) :
    (∀ call : Call, call.Admitted kept → ∃! left', Leaves kept left call (call.bare.run s).1 left') ∧
    (∀ c fault s', (add c).run s = (.error fault, s') → fault.isInfeasible = true →
      c.priority = .required ∧ ∀ x, Satisfies x (left ++ kept) → ¬c.Holds x) ∧
    ∀ (call : Call) s', call.Admitted kept → call ≠ .solve → call.bare.run s = (.ok (), s') →
      ∃ values s'', solve.run s' = (.ok values, s'') ∧
        config.Optimal (left ++ call.survivors kept (.ok ())) values.value := by
  have encumbered := trail.encumbered settings
  refine ⟨fun call admitted => ?_, fun c fault s' refused infeasible => ?_,
    fun call s' admitted changes ran => ?_⟩
  · obtain ⟨left', leaves, -⟩ := (encumbered.calling settings admitted []).leaves
    exact ⟨left', leaves, fun other => (encumbered.leaves_unique settings admitted rfl · leaves)⟩
  · have admitted : (Call.add c).Admitted kept := trivial
    have called := encumbered.calling settings admitted []
    exact called.contradicts c rfl fault (congrArg Prod.fst refused) infeasible
  · have called := encumbered.calling settings admitted []
    rw [ran] at called
    obtain ⟨left', leaves, posed, leftovers, laden, -⟩ := called.leaves
    obtain rfl := leaves.eq_of_ok
    have content := called.content changes rfl
    obtain ⟨s'', solved⟩ := laden.run_solve content
    exact ⟨_, s'', solved, laden.optimal settings content⟩

/-! ### An equation that is remembered -/

/-- An unknown is to be three at most. -/
def atMostThree : Constraint Rat :=
  { tag := .given 0, left := .variable ⟨"x", 0⟩, comparator := .le, right := .constant 3 }

/-- An unknown must be five. -/
def mustBeFive : Constraint Rat :=
  { tag := .given 1, left := .variable ⟨"x", 0⟩, comparator := .eq, right := .constant 5 }

/-- An unknown is wanted to be ten. -/
def wishesTen : Constraint Rat where
  tag := .given 2
  left := .variable ⟨"x", 0⟩
  comparator := .eq
  right := .constant 10
  priority := .high

/-- The solver that refused an equation after a bound that contradicts it. -/
def refusing : Solver Rat :=
  ((add mustBeFive).run ((add atMostThree).run (create exactSettings)).2).2

/-- The same solver once the bound was taken back. -/
def unbounded : Solver Rat := ((remove atMostThree).run refusing).2

theorem runs_refusing :
    (add atMostThree).run (create exactSettings) =
        (.ok (), ((add atMostThree).run (create exactSettings)).2) ∧
      (add mustBeFive).run ((add atMostThree).run (create exactSettings)).2 =
        (.error .infeasible, refusing) ∧
      (remove atMostThree).run refusing = (.ok (), unbounded) ∧
      (add wishesTen).run unbounded = (.ok (), ((add wishesTen).run unbounded).2) := by
  obtain ⟨bounds, infeasible, frees, wishes⟩ :
      ((add atMostThree).run (create exactSettings)).1.isOk = true ∧
      (match ((add mustBeFive).run ((add atMostThree).run (create exactSettings)).2).1 with
        | .error .infeasible => true
        | _ => false) = true ∧
      ((remove atMostThree).run refusing).1.isOk = true ∧
      ((add wishesTen).run unbounded).1.isOk = true := by
    decide +kernel
  obtain ⟨_, added⟩ := Step.run_of_isOk bounds
  obtain ⟨_, removed⟩ := Step.run_of_isOk frees
  obtain ⟨_, wished⟩ := Step.run_of_isOk wishes
  refine ⟨added, Prod.ext ?_ rfl, removed, wished⟩
  split at infeasible
  · assumption
  · cases infeasible

/-- The bound that contradicted a refused equation is gone, but the unknown still does not pass it. -/
theorem refusal_remembered : ∃ s₁ s₂ s₃ s₄ values s₅,
    (add atMostThree).run (create exactSettings) = (.ok (), s₁) ∧
    (add mustBeFive).run s₁ = (.error .infeasible, s₂) ∧
    (remove atMostThree).run s₂ = (.ok (), s₃) ∧ (add wishesTen).run s₃ = (.ok (), s₄) ∧
    solve.run s₄ = (.ok values, s₅) ∧ values.value ⟨"x", 0⟩ = 5 ∧
      ¬exactSettings.Optimal [wishesTen] values.value := by
  obtain ⟨added, refused, removed, wished⟩ := runs_refusing
  obtain ⟨solves, reads⟩ :
      (solve.run ((add wishesTen).run unbounded).2).1.isOk = true ∧
      (solve.run ((add wishesTen).run unbounded).2).1.toOption.map (·.value ⟨"x", 0⟩) = some 5 := by
    decide +kernel
  obtain ⟨values, solved⟩ := Step.run_of_isOk solves
  rw [solved] at reads
  have five : values.value ⟨"x", 0⟩ = 5 := Option.some.inj reads
  refine ⟨_, _, _, _, values, _, added, refused, removed, wished, solved, five, fun optimal => ?_⟩
  -- Ten would miss nothing.
  have least := optimal.2 (fun _ => 10) fun c member required => by
    obtain rfl := List.mem_singleton.1 member
    cases required
  have loss (x : Variable → Rat) :
      exactSettings.loss [wishesTen] x = 751 * |x ⟨"x", 0⟩ - 10| := by
    have weight : exactSettings.weight? .high = some 751 := by decide +kernel
    rw [Config.loss, List.map_singleton, List.sum_singleton, wishesTen, weight]
    rfl
  rw [loss, loss, five] at least
  norm_num at least

/-- What is left of the equation is that the unknown is five at most. -/
theorem refusal_spec_mustBeFive :
    Trail exactSettings [] [{ mustBeFive with comparator := .le }] unbounded ∧
    ∃ s values s', (add wishesTen).run unbounded = (.ok (), s) ∧ solve.run s = (.ok values, s') ∧
      exactSettings.Optimal [{ mustBeFive with comparator := .le }, wishesTen] values.value := by
  obtain ⟨added, refused, removed, wished⟩ := runs_refusing
  have bounded : Trail exactSettings [atMostThree] [] _ :=
    .called .created (.add atMostThree) trivial added (.nothing fun _ _ _ => by simp)
  have strained : Trail exactSettings [atMostThree] [{ mustBeFive with comparator := .le }] refusing := by
    refine bounded.called (.add mustBeFive) trivial refused (.side rfl (by simp) fun x satisfies => ?_)
    have three : x ⟨"x", 0⟩ ≤ 3 := satisfies atMostThree (by simp) rfl
    have five : x ⟨"x", 0⟩ ≤ 5 := by linarith
    exact five
  have freed : Trail exactSettings [] [{ mustBeFive with comparator := .le }] unbounded := by
    refine strained.called (.remove atMostThree) (fun d member _ => ?_) removed
      (.nothing fun _ same => by cases same)
    obtain rfl := List.mem_singleton.1 member
    exact .inr (by decide)
  obtain ⟨-, -, best⟩ := refusal_spec exact_exactSettings freed
  obtain ⟨values, s', solved, optimal⟩ := best (.add wishesTen) _ trivial (by simp) wished
  exact ⟨freed, _, values, s', wished, solved, optimal⟩

end Solver

end SoftSimplex
