import SoftSimplex.Proofs.Simplex.Entering
import SoftSimplex.Proofs.Simplex.Growing
import SoftSimplex.Proofs.Simplex.Removal

/-!
Simplex solvers whose parts fit together, whatever happened to them.

A solver is consistent if its tableau is sound and in order and has its objective, and if it can take out
what it registered (`Consistent`). Every call keeps that, for every tolerance and whether it answers or
fails, and no call forgets a variable or, without tolerance, what the objective charges for
(`Command.evolves`); a solver that was put up for a program begins so (`consistent_install`).
-/

namespace SoftSimplex

namespace Tableau

variable {t t' : Tableau Rat} {marker : Column} {restraint : Restraint}
  {pairs : Column → Column → Prop}

/-- Exposing a restricted column touches no other. -/
theorem Exposed.changes (exposed : t.Exposed marker t') (restricted : marker.isRestricted = true) :
    Changes {marker} ∅ t t' := by
  cases exposed with
  | basic _ => exact .refl
  | struck _ _ =>
      exact .single (.struck (Column.not_external_of_restricted restricted) rfl)
  | pivoted _ pivotal _ => exact .single (.pivoted pivotal)

/-- Taking out a marker that is no dummy keeps the order, and so does taking out any marker where nothing
is refrained from: a row that may mention unknowns of the caller leaves only where no restricted row
mentions the marker. -/
theorem Exposed.orderly (exposed : t.Exposed marker t') (wf : t.WellFormed)
    (orderly : t.Orderly restraint pairs) (single : Unpaired pairs marker)
    (spared : restraint ≠ .free → marker.isDummy = false) :
    (t'.removeRow marker).Orderly restraint pairs := by
  cases exposed with
  | basic _ => exact orderly.removeRow marker
  | struck _ _ => exact (orderly.removeColumn wf single).removeRow marker
  | @pivoted exit row _ pivotal leaves =>
      have exact_of (exact : ((t.pivoted marker exit row).removeRow marker).tolerance = some 0) :
          t.Exact := ⟨wf, by rwa [tolerance_removeRow, wf.tolerance_pivoted] at exact⟩
      refine ⟨fun key c restricted mentioned => ?_, fun keeping key c dummy mentioned => ?_,
        fun still exact c dummy => ?_, fun exact m n listed => ?_⟩
      · obtain ⟨different, inPivoted⟩ := mentions_removeRow.1 mentioned
        by_cases restrictedExit : exit.isRestricted = true
        · exact orderly.sheltered.pivoted wf pivotal restrictedExit key c restricted inPivoted
        have free : ∀ key, key.isRestricted = true → ¬t.Mentions key marker := by
          cases leaves with
          | falling restricted _ _ => exact absurd restricted restrictedExit
          | rising restricted _ _ => exact absurd restricted restrictedExit
          | free unmentioned => exact unmentioned
        rcases wf.mentions_of_mentions_pivoted pivotal inPivoted with
          ⟨same, -⟩ | ⟨-, -, kept | ⟨touched, -⟩⟩
        · exact absurd same different
        · exact orderly.sheltered key c restricted kept
        · exact absurd touched (free key restricted)
      · exact (orderly.insulated keeping).pivoted wf pivotal (spared keeping) key c dummy
          (mentions_removeRow.1 mentioned).2
      · have moves := spared (Restraint.ne_free_of_still still)
        have different : c ≠ marker := by
          rintro rfl
          rw [dummy] at moves
          cases moves
        rw [basicSolution_removeRow different, (orderly.insulated_of_still still).basicSolution_pivoted
          (exact_of exact) pivotal moves dummy]
        exact orderly.grounded still (exact_of exact).exact c dummy
      · exact ((orderly.paired (exact_of exact).exact m n listed).pivoted (exact_of exact)
          pivotal).removeRow marker

end Tableau

/-- A variable has a coefficient in a constraint that can be told from zero. -/
def Constraint.Involves (c : Constraint Rat) (e : Rat) (v : Variable) : Prop :=
  e < |(Row.residual c).coefficient (.external v)|

instance (c : Constraint Rat) (e : Rat) (v : Variable) : Decidable (c.Involves e v) :=
  inferInstanceAs (Decidable (_ < _))

/-- A variable of a constraint was met, or it is in the row that the constraint comes to. -/
theorem Tableau.Sound.met_or_contains_reduced {t : Tableau Rat} {c : Constraint Rat} {e : Rat}
    {v : Variable} (sound : t.Sound) (tolerance : t.tolerance = some e) (involves : c.Involves e v) :
    t.Met v ∨ (t.reduced c).terms.contains (.external v) = true := by
  by_cases known : Column.external v ∈ t.scope
  · exact .inl (sound.met_of_mem_scope known)
  · right
    rw [reduced, purge_eq tolerance]
    apply sound.toWellFormed.contains_parametrize_of_new tolerance known
    rwa [Row.coefficient_purge_of_lt involves]

namespace Simplex

open Tableau

variable {s s' s₁ : Simplex Rat} {free moving : Set Column} {c : Constraint Rat} {v : Variable} {e : Rat}
  {p : Posed} {restraint : Restraint}

/-! ### Solvers between two calls -/

/-- The tableau is sound, it has its objective and not the one of a first phase, and every symbol in it
was numbered. -/
structure Intact (s : Simplex Rat) : Prop where
  sound : s.tableau.Sound
  stored : (s.tableau.rows.get? .objective).isSome
  idle : s.tableau.rows.get? .artificialObjective = none
  fresh : s.Fresh
  numbered : 2 ≤ s.nextSerial

/-- The tableau is in order, and what is registered is marked by columns that can be taken out, of which
only those of equations are dummies. -/
structure Consistent (restraint : Restraint) (s : Simplex Rat) : Prop extends s.Intact where
  orderly : s.tableau.Orderly restraint ⊥
  markers : ∀ tag registration, s.registered.get? tag = some registration →
    registration.marker.isRestricted = true ∧ registration.marker.Below s.nextSerial
  binding : ∀ tag registration, s.registered.get? tag = some registration →
    registration.marker.isDummy = true → registration.constraint.comparator = .eq

theorem Intact.entered {row : Row Rat} (intact : s.Intact) (entered : s.Entered row s') :
    s'.Intact where
  sound := entered.changes.sound intact.sound
  stored := entered.changes.stays intact.sound rfl (.inr rfl) intact.stored
  idle := entered.idle
  fresh := entered.fresh intact.fresh
  numbered := intact.numbered.trans entered.serial

theorem Intact.grows (intact : s.Intact) (grows : s.Grows free moving s')
    (kept : .artificialObjective ∉ free) : s'.Intact where
  sound := grows.changes.sound intact.sound
  stored := grows.changes.stays intact.sound rfl (.inr rfl) intact.stored
  idle := grows.changes.stays_absent intact.sound rfl kept intact.idle
  fresh := grows.fresh intact.fresh
  numbered := intact.numbered.trans grows.serial

theorem Consistent.of_keeps (consistent : s.Consistent restraint) (keeps : s.Keeps s')
    (intact : s'.Intact) (orderly : s'.tableau.Orderly restraint ⊥) : s'.Consistent restraint where
  toIntact := intact
  orderly := orderly
  markers tag registration found := by
    rw [keeps.registered] at found
    exact (consistent.markers tag registration found).imp_right (·.mono keeps.serial)
  binding tag registration found := by
    rw [keeps.registered] at found
    exact consistent.binding tag registration found

/-- The row of a posed constraint with columns that were numbered. -/
theorem Intact.addable (intact : s.Intact) (fits : p.Fits) (prepared : s.Prepared p s')
    (intact' : s'.Intact) : s'.Addable (s.posedRow p) := by
  have wf := intact.sound.toWellFormed
  have apart := prepared.apart fits wf intact.stored
  have others : ∀ c, c.isObjective = false →
      s'.tableau.rows.get? c = s.tableau.rows.get? c := fun c plain =>
    apart.others c (by rintro rfl; cases plain)
  have reduced := wf.parametric_reduced p.constraint
  have parametric : s'.tableau.Parametric (s.tableau.reduced p.constraint) :=
    ⟨reduced.nonzero, fun c present => (others c (reduced.plain c present)).trans
      (reduced.nonbasic c present), reduced.plain⟩
  have outside : ∀ c ∈ p.columns, s'.tableau.rows.get? c = none := fun c mine => by
    rw [others c (Column.not_objective_of_restricted (Markers.Fits.restricted fits mine))]
    exact not_basic_of_not_mem_scope fun known =>
      (prepared.columns c mine).not_below (intact.fresh c known)
  refine ⟨intact'.sound, intact'.idle, intact'.fresh, intact'.numbered,
    (parametric.insertable fits outside).toParametric, fun c present => ?_⟩
  rcases contains_posedRow.1 present with mine | inRow
  · exact (prepared.columns c mine).below
  · rcases wf.known_reduced p.constraint c inRow with external | known
    · cases c with
      | external v => trivial
      | symbol s => cases external
    · exact (intact.fresh c known).mono prepared.keeps.serial

/-- The variables of a constraint are met once its row was put in, however that ended. -/
theorem Entered.met_involved (entered : s₁.Entered (s.posedRow p) s') (sound : s.tableau.Sound)
    (sound₁ : s₁.tableau.Sound) (kept : s.tableau.Met v → s₁.tableau.Met v)
    (tolerance : s.tableau.tolerance = some e) (involves : p.constraint.Involves e v) :
    s'.tableau.Met v := by
  rcases sound.met_or_contains_reduced tolerance involves with met | inRow
  · exact entered.changes.met sound₁ (kept met)
  · exact entered.met v (contains_posedRow.2 (.inr inRow))

/-! ### What calls keep -/

/-- The goal and the tolerance are the same, no variable is forgotten, and without tolerance the objective
charges for unknowns of the caller what it charged before. -/
structure Remembers (s s' : Simplex Rat) : Prop where
  goal : s'.goal = s.goal
  tolerance : s'.tableau.tolerance = s.tableau.tolerance
  met : ∀ v, s.tableau.Met v → s'.tableau.Met v
  billed : s.tableau.tolerance = some 0 →
    ∀ bill : Row Rat, (∀ c, bill.coefficient c ≠ 0 → c.isExternal = true) →
      s.tableau.Billed .objective bill → s'.tableau.Billed .objective bill

/-- A solver with the same goal and tableau remembers. -/
theorem Remembers.of_same (goal : s'.goal = s.goal) (same : s'.tableau = s.tableau) : s.Remembers s' where
  goal := goal
  tolerance := by rw [same]
  met _ := same ▸ id
  billed _ _ _ := same ▸ id

/-- A consistent solver stays so, and remembers. -/
def Evolves (restraint : Restraint) (s s' : Simplex Rat) : Prop :=
  s.Consistent restraint → s'.Consistent restraint ∧ s.Remembers s'

instance : IsPreorder (Simplex Rat) (Evolves restraint) where
  refl _ := fun consistent => ⟨consistent, .of_same rfl rfl⟩
  trans _ _ _ first second := fun consistent => by
    obtain ⟨consistent₁, remembers₁⟩ := first consistent
    obtain ⟨consistent₂, remembers₂⟩ := second consistent₁
    refine ⟨consistent₂, remembers₂.goal.trans remembers₁.goal,
      remembers₂.tolerance.trans remembers₁.tolerance, fun v met => ?_, fun exact bill external billed => ?_⟩
    · exact remembers₂.met v (remembers₁.met v met)
    · exact remembers₂.billed (remembers₁.tolerance.trans exact) bill external
        (remembers₁.billed exact bill external billed)

/-- Changes that move no constant, and that give up neither the objective nor a variable which the tableau
knows. -/
theorem Intact.remembers (intact : s.Intact) (goal : s'.goal = s.goal)
    (changes : Changes free ∅ s.tableau s'.tableau)
    (kept : .objective ∉ free) (new : ∀ c ∈ free, c.isExternal = true → c ∉ s.tableau.scope) :
    s.Remembers s' where
  goal := goal
  tolerance := changes.tolerance_eq intact.sound
  met _ := changes.met intact.sound
  billed exact _ external billed :=
    changes.billed_of_still intact.sound exact billed kept fun c nonzero given =>
      new c given (external c nonzero)
        (billed.mem_scope intact.sound rfl intact.stored nonzero)

theorem Grows.evolves (grows : s.Grows ∅ ∅ s') (orderly : s.tableau.Sound →
    s.tableau.Orderly restraint ⊥ → s'.tableau.Orderly restraint ⊥) : s.Evolves restraint s' :=
  fun consistent =>
    ⟨consistent.of_keeps grows.toKeeps (consistent.grows grows (Set.notMem_empty _))
      (orderly consistent.sound consistent.orderly),
      consistent.remembers grows.goal grows.changes (Set.notMem_empty _) nofun⟩

theorem Exchanged.evolves (exchanged : s.Exchanged s') : s.Evolves restraint s' := fun consistent =>
  (exchanged.grows consistent.sound).evolves
    (fun sound orderly => orderly.exchanges sound exchanged.exchanges) consistent

theorem Entered.evolves {row : Row Rat} (entered : s.Entered row s') : s.Evolves restraint s' :=
  fun consistent =>
    ⟨consistent.of_keeps entered.toKeeps (consistent.entered entered)
      (entered.orderly restraint ⊥ (fun _ _ => False.elim) consistent.orderly),
      consistent.remembers entered.goal entered.changes
        (fun new => new (Tableau.mem_scope.2 (.inl consistent.stored))) fun _ new _ => new⟩

/-- Nothing is asked of a step from a solver that is not consistent. -/
theorem leads_of_consistent {α : Type} {x : Step Rat (Simplex Rat) α}
    (leads : s.Consistent restraint → x.Leads (Evolves restraint) (fun _ => True) s) :
    x.Leads (Evolves restraint) (fun _ => True) s :=
  ⟨fun consistent => (leads consistent).reaches consistent, fun _ _ => trivial⟩

/-- Columns may be numbered while the tableau is left alone. -/
theorem Keeps.evolves (keeps : s.Keeps s') (same : s'.tableau = s.tableau) : s.Evolves restraint s' := by
  have grows : s.Grows ∅ ∅ s' :=
    ⟨keeps, same ▸ .refl, fun fresh c known => (fresh c (same ▸ known)).mono keeps.serial⟩
  exact grows.evolves fun _ orderly => same ▸ orderly

theorem leads_add (c : Constraint Rat) (s : Simplex Rat) :
    (add c).Leads (Evolves restraint) (fun _ => True) s := by
  refine leads_of_consistent fun consistent => ?_
  obtain ⟨column, s₁, marking, fits, prepared⟩ :=
    exists_markedRow consistent.sound.toWellFormed c
  have first : s.Evolves restraint s₁ := prepared.keeps.evolves
    (prepared.tableau_eq fits Posed.weight_required)
  have consistent₁ := (first consistent).1
  have inserting := (consistent.addable fits prepared consistent₁.toIntact).leads_insertRow [column]
  refine .congr (Step.run_bind_get _ s) ?_
  by_cases known : s.has c = true
  · rw [if_pos known]
    exact .of_error (Step.run_failStep _ _) (refl_of _ s) trivial
  · rw [if_neg known]
    cases c.priority.isRequired with
    | false => exact .of_error (Step.run_failStep _ _) (refl_of _ s) trivial
    | true =>
        refine .congr (Step.run_bind_report _ _ s) ?_
        refine .bind_of_ok marking first ?_
        refine .bind (inserting.mono (fun _ => Entered.evolves) fun _ _ => trivial)
          fun _ s₂ ran _ => ?_
        have entered : s₁.Entered (s.posedRow (.required c column)) s₂ := by
          have reached := inserting.reaches
          rwa [ran] at reached
        have own : column ∈ (Posed.required c column).columns := by
          rw [Posed.columns_required]
          exact List.mem_singleton_self _
        refine .of_ok ((Step.run_bind_modify _ _ _).trans (run_snapshot _ _)) fun consistent₂ =>
          ⟨⟨⟨consistent₂.sound, consistent₂.stored, consistent₂.idle, consistent₂.fresh,
            consistent₂.numbered⟩, consistent₂.orderly, fun tag registration found => ?_,
            fun tag registration found dummy => ?_⟩,
            .of_same rfl rfl⟩
        · rw [register, Sorted.Map.get?_insert] at found
          split at found
          · cases found
            exact ⟨Markers.Fits.restricted fits own,
              (prepared.columns column own).below.mono entered.serial⟩
          · exact consistent₂.markers tag registration found
        · rw [register, Sorted.Map.get?_insert] at found
          split at found
          · cases found
            exact Posed.comparator_of_dummy fits dummy
          · exact consistent₂.binding tag registration found dummy

/-- The variables of a constraint are met once it was added, or contradicted the others. -/
theorem Consistent.met_add (consistent : s.Consistent restraint)
    (tolerance : s.tableau.tolerance = some e)
    (judged : ∀ fault, ((add c).run s).1 = .error fault → fault.isInfeasible = true)
    (involves : c.Involves e v) : ((add c).run s).2.tableau.Met v := by
  obtain ⟨column, s₁, marking, fits, prepared⟩ :=
    exists_markedRow consistent.sound.toWellFormed c
  have same := prepared.tableau_eq fits Posed.weight_required
  have consistent₁ := (prepared.keeps.evolves same consistent).1
  have inserting := (consistent.addable fits prepared consistent₁.toIntact).leads_insertRow [column]
  have met := inserting.reaches.met_involved consistent.sound consistent₁.sound
    (fun met => same ▸ met) tolerance involves
  suffices leads : (add c).Leads (fun _ s' => s'.tableau.Met v) (fun _ => True) s from leads.reaches
  refine .congr (Step.run_bind_get _ s) ?_
  by_cases known : s.has c = true
  · cases judged (.constraintExists c) (by rw [add, Step.run_bind_get, if_pos known]; rfl)
  rw [if_neg known]
  cases required : c.priority.isRequired with
  | false =>
      cases judged (.optionalConstraint c)
        (by rw [add, Step.run_bind_get, if_neg known, required]; rfl)
  | true =>
      refine .congr (Step.run_bind_report _ _ s) (.of_later (Step.run_bind_of_ok marking) ?_)
      refine .bind_into (R := fun _ s' => s'.tableau.Met v) ⟨met, fun _ _ => trivial⟩ (fun _ => id) ?_
      intro _ s₂ _ met₂
      exact .of_ok ((Step.run_bind_modify _ _ _).trans (run_snapshot _ _)) met₂

theorem Removed.changes {tag : Tag} (removed : s.Removed p tag s')
    (restricted : p.markers.main.isRestricted = true) :
    Changes {p.markers.main} ∅ s.tableau s'.tableau := by
  obtain ⟨t', exposed, same⟩ := removed.tableau
  rw [same]
  refine (exposed.changes restricted).tail
    (.removed (Column.not_external_of_restricted restricted) ?_ rfl)
  intro equal
  rw [equal] at restricted
  cases restricted

theorem Intact.removed {tag : Tag} (intact : s.Intact) (removed : s.Removed p tag s')
    (restricted : p.markers.main.isRestricted = true)
    (below : p.markers.main.Below s.nextSerial) : s'.Intact := by
  have changes := removed.changes restricted
  have sound := intact.sound
  refine ⟨changes.sound sound, changes.stays sound rfl (.inr rfl) intact.stored,
    changes.stays_absent sound rfl (fun own => ?_) intact.idle, fun c known => ?_,
    removed.serial ▸ intact.numbered⟩
  · rw [← Set.mem_singleton_iff.1 own] at restricted
    cases restricted
  · rw [removed.serial]
    rcases changes.mem_scope sound known with before | own
    · exact intact.fresh c before
    · exact Set.mem_singleton_iff.1 own ▸ below

/-- Required equations that are registered stay registered. -/
def Honours (s s' : Simplex Rat) : Prop := ∀ tag registration, s.registered.get? tag = some registration →
  registration.constraint.comparator = .eq → (s'.registered.get? tag).isSome

theorem honours_iff : s.Honours s' ↔ ∀ entry ∈ s.registered.toList,
    entry.2.constraint.comparator = .eq → (s'.registered.get? entry.1).isSome :=
  ⟨fun honours _ listed => honours _ _ (Sorted.Map.get?_eq_some_iff.2 listed),
    fun each tag registration found =>
      each (tag, registration) (Sorted.Map.get?_eq_some_iff.1 found)⟩

instance (s s' : Simplex Rat) : Decidable (s.Honours s') := decidable_of_iff _ honours_iff.symm

/-- Taking a constraint back, unless a required equation is lost that is not to be. -/
theorem leads_remove (c : Constraint Rat) (s : Simplex Rat)
    (honours : restraint ≠ .free → s.Honours ((remove c).run s).2) :
    (remove c).Leads (Evolves restraint) (fun _ => True) s := by
  refine leads_of_consistent fun consistent => ?_
  cases found : s.registered.get? c.tag with
  | none =>
      have unknown : (remove c).run s = (.error (.constraintNotFound c), s) := by
        rw [remove, Step.run_bind_get, found]
        rfl
      exact .of_error unknown (refl_of _ s) trivial
  | some registration =>
      obtain ⟨restricted, below⟩ := consistent.markers c.tag registration found
      have main : (Posed.required registration.constraint registration.marker).markers.main =
        registration.marker := Posed.main_required
      obtain ⟨s', ran, removed⟩ := run_remove (s := s) consistent.sound.toWellFormed found main.symm
      have notDummy (refrained : restraint ≠ .free) : registration.marker.isDummy = false := by
        rw [← Bool.not_eq_true]
        intro dummy
        have kept := honours refrained c.tag registration found
          (consistent.binding c.tag registration found dummy)
        rw [ran, removed.registered, Sorted.Map.get?_erase, if_pos rfl] at kept
        cases kept
      rw [← main] at restricted below notDummy
      obtain ⟨t', exposed, same⟩ := removed.tableau
      have orderly : s'.tableau.Orderly restraint ⊥ := same ▸ exposed.orderly
        consistent.sound.toWellFormed consistent.orderly (fun _ _ => False.elim) notDummy
      have left {tag : Tag} {other : Registration Rat} (listed : s'.registered.get? tag = some other) :
          s.registered.get? tag = some other := by
        rw [removed.registered, Sorted.Map.get?_erase] at listed
        split at listed
        · cases listed
        · exact listed
      refine .of_ok ran fun _ => ⟨⟨consistent.removed removed restricted below, orderly,
        fun tag other listed => ?_, fun tag other listed => consistent.binding tag other (left listed)⟩,
        consistent.remembers removed.goal (removed.changes restricted)
          (fun own => by rw [← Set.mem_singleton_iff.1 own] at restricted; cases restricted)
          fun c own external => by
            rw [Set.mem_singleton_iff.1 own, Column.not_external_of_restricted restricted] at external
            cases external⟩
      rw [removed.serial]
      exact consistent.markers tag other (left listed)

/-- Reading the solution changes nothing. -/
theorem leads_evaluate {R : Simplex Rat → Simplex Rat → Prop} [IsPreorder (Simplex Rat) R]
    (s : Simplex Rat) : evaluate.Leads R (fun _ => True) s := by
  have same : (evaluate.run s).2 = s := by
    rw [evaluate, Step.run_bind_get, Step.run_ofExcept]
  exact ⟨same.symm ▸ refl_of R s, fun _ _ => trivial⟩

theorem leads_solve (s : Simplex Rat) : solve.Leads (Evolves restraint) (fun _ => True) s :=
  leads_of_consistent fun consistent =>
    .bind ((leads_optimize consistent.sound .objective).mono (fun _ => Exchanged.evolves)
      fun _ _ => trivial) fun _ s' _ _ => leads_evaluate s'

/-! ### Putting a program in -/

/-- A solver with only an objective is consistent. -/
theorem consistent_founded (nonneg : 0 ≤ e) (objective : Objective Rat) (logged : Bool) :
    ((empty (some e) objective.goal logged).withTableau
      ((Tableau.empty (some e) logged).insertRow .objective
        (objective.unpurgedRow.purge e))).Consistent restraint := by
  have foundation := objective.foundation_purge nonneg
  have sound : (Tableau.empty (some e) logged).Sound :=
    ⟨Tableau.wellFormed_empty nonneg logged, fun _ indexed => (nomatch indexed),
      fun _ basic => absurd basic (Sorted.Set.not_mem_empty _),
      fun _ waits => absurd waits (Sorted.Set.not_mem_empty _),
      fun _ waits => absurd waits (Sorted.Set.not_mem_empty _)⟩
  have absent : ∀ key, key.isObjective = false → ((Tableau.empty (some e) logged).insertRow .objective
      (objective.unpurgedRow.purge e)).rows.get? key = none := fun key plain => by
    rw [get?_insertRow, if_neg]
    · rfl
    · rintro rfl
      cases plain
  refine ⟨⟨sound.insertRow (foundation.storable _ logged) rfl, ?_, ?_, fun c known => ?_, le_rfl⟩,
    orderly_of_absent absent, fun tag registration found => (nomatch found),
    fun tag registration found => (nomatch found)⟩
  · rw [tableau_withTableau, get?_insertRow, if_pos rfl]
    rfl
  · rw [tableau_withTableau, get?_insertRow, if_neg (by simp [Column.objective,
      Column.artificialObjective])]
    rfl
  · rcases mem_scope_insertRow.1 known with rfl | present | before
    · exact Nat.zero_lt_two
    · cases c with
      | external v => trivial
      | symbol s => cases foundation.external _ present
    · rcases mem_scope.1 before with stored | indexed
      · cases stored
      · cases indexed

theorem leads_addNonnegative (v : Variable) (s : Simplex Rat) :
    (addNonnegative v).Leads (Evolves restraint) (fun _ => True) s :=
  .bind_of_ok (x := freshTag) rfl (fun consistent => ⟨⟨⟨consistent.sound, consistent.stored,
    consistent.idle, consistent.fresh, consistent.numbered⟩, consistent.orderly, consistent.markers,
    consistent.binding⟩, .of_same rfl rfl⟩)
    (leads_add _ _)

/-- Putting a program in keeps what the objective charges, even where the program contradicts itself. -/
theorem evolves_install (nonneg : 0 ≤ e) (problem : Problem Rat) (logged : Bool) :
    ((empty (some e) problem.objective.goal logged).withTableau
      ((Tableau.empty (some e) logged).insertRow .objective
        (problem.objective.unpurgedRow.purge e))).Evolves restraint
      ((install problem).run (empty (some e) problem.objective.goal logged)).2 := by
  rw [run_install_eq problem nonneg logged]
  refine (Step.Leads.bind (Step.Leads.forEach fun c _ s' _ => leads_add c s') fun _ s' _ _ => ?_ :
    Step.Leads (Evolves restraint) (fun _ => True) _ _).reaches
  split
  · exact .congr (Step.run_bind_get _ s') (.forEach fun v _ s'' _ => leads_addNonnegative v s'')
  · exact .of_ok (Step.run_return _ _) (refl_of _ s')

/-- A solver for a program is consistent. -/
theorem consistent_install (nonneg : 0 ≤ e) (problem : Problem Rat) (logged : Bool) :
    ((install problem).run (empty (some e) problem.objective.goal logged)).2.Consistent restraint :=
  (evolves_install nonneg problem logged (consistent_founded nonneg problem.objective logged)).1

theorem tolerance_install (nonneg : 0 ≤ e) (problem : Problem Rat) (logged : Bool) :
    ((install problem).run (empty (some e) problem.objective.goal logged)).2.tableau.tolerance =
      some e := by
  have evolves : Evolves .free _ _ := evolves_install nonneg problem logged
  obtain ⟨-, remembers⟩ := evolves (consistent_founded nonneg problem.objective logged)
  rw [remembers.tolerance, tableau_withTableau, tolerance_insertRow]
  rfl

/-! ### Calls -/

/-- What a caller asks of a simplex solver. -/
inductive Command where
  | add (c : Constraint Rat)
  | remove (c : Constraint Rat)
  | solve

namespace Command

/-- The step of a command. -/
def step : Command → Step Rat (Simplex Rat) Unit
  | add c => Simplex.add c
  | remove c => Simplex.remove c
  | solve => do
    let _ ← Simplex.solve

/-- A command takes no required equation back, if that is refrained from. -/
def Heeds (restraint : Restraint) (s : Simplex Rat) (command : Command) : Prop :=
  restraint ≠ .free → s.Honours (command.step.run s).2

theorem heeds_free (command : Command) (s : Simplex Rat) : command.Heeds .free s := absurd rfl

theorem evolves (command : Command) (s : Simplex Rat) (heeds : command.Heeds restraint s) :
    s.Evolves restraint (command.step.run s).2 := by
  cases command with
  | add c => exact (leads_add c s).reaches
  | remove c => exact (leads_remove c s heeds).reaches
  | solve =>
      exact (Step.Leads.bind (leads_solve s) fun _ s' _ _ =>
        .of_ok (Step.run_return _ _) (refl_of (Evolves restraint) s')).reaches

end Command

end Simplex

end SoftSimplex
