import SoftSimplex.Proofs.Solver.Agenda

/-!
Solvers that tend an agenda.

Whatever the sessions are doing, the columns of every entry pose what the entry wants (`Tends`), so the
values of a settled solver are best for what the agenda asks for (`Tends.optimal`). Resetting the stays
moves their targets to where the variables are, as setting the errors of a stay to zero moves its target
to its variable (`Tends.resetStays`).
-/

namespace SoftSimplex

open Tableau

variable {posed : List Posed} {p : Posed} {columns : List Column} {x : Variable → Rat} {c : Column}

/-! ### Columns that are set to zero -/

namespace Tableau

variable {t : Tableau Rat} {key : Column} {k : Rat}

/-- The tableau in which the rows of some columns have the constant zero. -/
def zeroed (t : Tableau Rat) (columns : List Column) : Tableau Rat :=
  columns.foldl (fun t column => t.setConstant column 0) t

theorem get?_zeroed (t : Tableau Rat) (columns : List Column) (key : Column) :
    (t.zeroed columns).rows.get? key =
      if key ∈ columns then (t.rows.get? key).map fun row => { row with constant := 0 }
      else t.rows.get? key := by
  induction columns generalizing t with
  | nil => simp [zeroed]
  | cons first rest ih =>
      rw [zeroed, List.foldl_cons, ← zeroed, ih, get?_setConstant]
      by_cases same : first = key
      · subst same
        by_cases again : first ∈ rest
        · simp [again, Function.comp_def]
        · simp [again]
      · simp [same, Ne.symm same]

theorem alike_zeroed (t : Tableau Rat) (columns : List Column) : t.Alike (t.zeroed columns) := by
  induction columns generalizing t with
  | nil => exact .refl t
  | cons first rest ih => exact (t.alike_setConstant first 0).trans (ih _)

theorem infeasible_zeroed (t : Tableau Rat) (columns : List Column) :
    (t.zeroed columns).infeasible = t.infeasible := by
  induction columns generalizing t with
  | nil => rfl
  | cons first rest ih => exact (ih _).trans (infeasible_setConstant _ _ _)

theorem basicSolution_zeroed (t : Tableau Rat) (columns : List Column) (c : Column) :
    (t.zeroed columns).basicSolution c = if c ∈ columns then 0 else t.basicSolution c := by
  have stored := get?_zeroed t columns c
  cases found : t.rows.get? c with
  | none =>
      rw [found, Option.map_none, ite_self] at stored
      rw [basicSolution_of_not_basic stored, basicSolution_of_not_basic found, ite_self]
  | some row =>
      rw [found, Option.map_some] at stored
      split at stored
      · next member => rw [basicSolution_of_basic stored, if_pos member]
      · next member => rw [basicSolution_of_basic stored, if_neg member, basicSolution_of_basic found]

/-- Setting columns of constraints to zero moves the targets of these constraints, and no other. -/
theorem Represents.zeroed (represents : t.Represents posed fun σ => k + costs posed σ)
    (family : Family posed) (owned : ∀ c ∈ columns, ∃ p ∈ posed, c ∈ p.columns) :
    ∃ amount : Tag → Rat,
      (∀ p ∈ posed, (∀ c ∈ p.columns, c ∉ columns) → amount p.constraint.tag = 0) ∧
      ∃ k', (t.zeroed columns).Represents (moved amount posed)
        fun σ => k' + costs (moved amount posed) σ := by
  induction columns generalizing t posed k with
  | nil =>
      refine ⟨fun _ => 0, fun _ _ _ => rfl, k, ?_⟩
      rwa [moved_of_zero fun _ _ => rfl]
  | cons first rest ih =>
      have ownedRest : ∀ c ∈ rest, ∃ p ∈ posed, c ∈ p.columns := fun c inRest =>
        owned c (List.mem_cons_of_mem _ inRest)
      obtain ⟨q, member, own⟩ := owned first List.mem_cons_self
      cases found : t.rows.get? first with
      | none =>
          have same : t.setConstant first 0 = t := by rw [setConstant, found]
          obtain ⟨amount, still, represents'⟩ := ih represents family ownedRest
          refine ⟨amount, fun p inside away => still p inside fun c inP =>
            fun inRest => away c inP (List.mem_cons_of_mem _ inRest), ?_⟩
          rwa [Tableau.zeroed, List.foldl_cons, same]
      | some row =>
          obtain ⟨term, inTerms, rfl⟩ := List.mem_map.1
            (Markers.map_terms_eq_columns q.markers ▸ own : first ∈ q.markers.terms.map (·.1))
          obtain ⟨k₁, represents₁⟩ := represents.displaced family member inTerms
            (t.alike_setConstant term.1 0) (represents.toExact.displaced_setConstant found 0)
          generalize amount₁_def : alone q.constraint.tag (term.2 * (row.constant - 0)) = amount₁
            at represents₁
          obtain ⟨amount, still, k', represents'⟩ := ih represents₁ (family.moved amount₁) (by
            intro c inRest
            obtain ⟨p, inside, inP⟩ := ownedRest c inRest
            exact ⟨p.moved amount₁, mem_moved.2 ⟨p, inside, rfl⟩, inP⟩)
          rw [moved_moved] at represents'
          refine ⟨amount₁ + amount, fun p inside away => ?_, k', represents'⟩
          have different : p.constraint.tag ≠ q.constraint.tag := by
            intro tags
            rw [family.eq_of_tag inside member tags] at away
            exact away term.1 own List.mem_cons_self
          have first : amount₁ p.constraint.tag = 0 := by
            rw [← amount₁_def]
            exact alone_of_ne different _
          have later : amount p.constraint.tag = 0 :=
            still (p.moved amount₁) (mem_moved.2 ⟨p, inside, rfl⟩) fun c inP inRest =>
              away c inP (List.mem_cons_of_mem _ inRest)
          rw [Pi.add_apply, first, later, add_zero]

theorem Upright.zeroed (upright : t.Upright) (columns : List Column) : (t.zeroed columns).Upright := by
  intro key row found restricted
  rw [get?_zeroed] at found
  split at found
  · obtain ⟨old, -, rfl⟩ := Option.map_eq_some_iff.1 found
    exact le_rfl
  · exact upright key row found restricted

theorem Steady.zeroed (steady : t.Steady) (columns : List Column) : (t.zeroed columns).Steady where
  sheltered := (t.alike_zeroed columns).sheltered steady.sheltered
  insulated := (t.alike_zeroed columns).insulated steady.insulated
  upright := steady.upright.zeroed columns

theorem Shaped.zeroed (shaped : t.Shaped) (wf : t.WellFormed) (columns : List Column) :
    (t.zeroed columns).Shaped :=
  (shaped.steady.zeroed columns).shaped fun c dummy => by
    rw [basicSolution_zeroed, (shaped.admissible wf).zero c dummy, ite_self]

end Tableau

/-- Setting columns to zero leaves a poised solver poised, with the targets that moved. -/
theorem Simplex.sustains_zeroed {s : Simplex Rat} {amount : Tag → Rat}
    (represents : ∃ k', (s.tableau.zeroed columns).Represents (moved amount posed)
      fun σ => k' + costs (moved amount posed) σ) :
    s.Sustains posed (s.withTableau (s.tableau.zeroed columns)) (moved amount posed) := fun poised =>
  ⟨{ toPriced := poised.toPriced.moved (alike_zeroed _ _) represents
     steady := poised.steady.zeroed columns
     optimized := optimized_of_alike poised.optimized (alike_zeroed _ _)
     recorded := fun key member =>
       poised.recorded key (infeasible_zeroed s.tableau columns ▸ member)
     done := poised.done }, fun shaped => shaped.zeroed poised.exact.toWellFormed columns⟩

namespace Solver

variable {config : Config Rat} {bound : Nat} {items : List Item} {i : Item} {s s' : Solver Rat}
  {v : Variable}

/-- The constraints of a solver pose the entries of items, and the open sessions list those of their
depth. A session beyond the open ones is one that is being opened or closed. -/
structure Tends (config : Config Rat) (bound : Nat) (items : List Item) (s : Solver Rat) : Prop
    extends s.Poses (posedOf items) where
  sound : ∀ i ∈ items, i.Sound
  weights : ∀ i ∈ items, i.markers.weight = config.weight? i.constraint.priority
  config_eq : s.config = config
  sessions : s.sessions = sessionsOf s.depth items
  within : ∀ i ∈ items, ∀ d, i.role.depth? = some d → d < bound
  given : ∀ i ∈ items, i.role.depth? = none → ∃ n, i.constraint.tag = .given n
  made : ∀ i ∈ items, i.role.depth? ≠ none →
    ∃ n, i.constraint.tag = .made n ∧ n < s.simplex.nextMade
  edits : (items.filterMap (·.role.edited?)).Nodup

namespace Tends

variable (tends : Tends config bound items s)
include tends

theorem value_eq : s.simplex.values.value = s.currentValue :=
  tends.priced.value_eq.trans s.currentValue_eq.symm

theorem meetsRequired_iff (settings : config.Exact) :
    MeetsRequired (posedOf items) x ↔ Satisfies x (wanted (agendaOf items)) := by
  rw [MeetsRequired, posedOf, List.forall_mem_map, Satisfies, wanted, agendaOf, List.map_map,
    List.forall_mem_map]
  refine forall₂_congr fun i member => ?_
  rw [tends.weights i member, settings.weight_eq_none_iff, (tends.sound i member).met_iff,
    Function.comp_apply, Entry.priority_wanted]
  rfl

theorem penalties_eq (x : Variable → Rat) :
    penalties (posedOf items) x = config.loss (wanted (agendaOf items)) x := by
  rw [penalties, posedOf, Config.loss, wanted, agendaOf, List.map_map, List.map_map, List.map_map]
  refine congrArg List.sum (List.map_congr_left fun i member => ?_)
  simp only [Function.comp_apply, Posed.penalty, tends.weights i member, Entry.priority_wanted,
    (tends.sound i member).shortfall_eq]
  rfl

theorem weighted (settings : config.Exact) : Weighted (posedOf items) := by
  intro p member w weight
  obtain ⟨i, inside, rfl⟩ := List.mem_map.1 member
  rw [tends.weights i inside] at weight
  exact (settings.weight_pos _ w weight).le

/-- The values of a settled solver are best for what the agenda asks for. -/
theorem optimal (settings : config.Exact) (settled : s.simplex.Settled (posedOf items)) :
    config.Optimal (wanted (agendaOf items)) s.currentValue := by
  obtain ⟨meets, least⟩ := settled.optimal (tends.weighted settings)
  rw [tends.value_eq] at meets least
  refine ⟨(tends.meetsRequired_iff settings).1 meets, fun y satisfies => ?_⟩
  rw [← tends.penalties_eq, ← tends.penalties_eq]
  exact least y ((tends.meetsRequired_iff settings).2 satisfies)

/-- One tag belongs to one item. -/
theorem eq_of_tag {j : Item} (iIn : i ∈ items) (jIn : j ∈ items)
    (same : i.constraint.tag = j.constraint.tag) : i = j := by
  have nodup : (items.map fun i => i.constraint.tag).Nodup := by
    have tags := tends.priced.family.tags
    rwa [posedOf, List.map_map] at tags
  exact List.inj_on_of_nodup_map nodup iIn jIn same

/-- What a solver tends does not depend on what it read, or on what awaits repair. -/
theorem congr (priced : s'.simplex.Priced (posedOf items)) (installed : s'.installed = s.installed)
    (config_eq : s'.config = s.config) (sessions : s'.sessions = s.sessions)
    (nextMade : s.simplex.nextMade ≤ s'.simplex.nextMade) : Tends config bound items s' :=
  { tends with
    priced := priced
    installed := fun tag => installed ▸ tends.installed tag
    config_eq := config_eq.trans tends.config_eq
    sessions := by
      rw [depth, sessions]
      exact tends.sessions
    made := fun i member at_ => by
      obtain ⟨n, tag, below⟩ := tends.made i member at_
      exact ⟨n, tag, below.trans_le nextMade⟩ }

/-! ### Items whose targets move -/

/-- Where the items are posed with other targets, and the sessions list them as before or with them,
the solver tends them. -/
theorem changed {amount : Tag → Rat} {f : Role → Role}
    (poses : s'.Poses (moved amount (posedOf items)))
    (sound : ∀ i ∈ items, (i.changed amount f).Sound) (config_eq : s'.config = s.config)
    (nextMade : s'.simplex.nextMade = s.simplex.nextMade)
    (sessions : s'.sessions = sessionsOf s'.depth (items.map (Item.changed amount f)))
    (depths : ∀ role, (f role).depth? = role.depth?)
    (edited : ∀ role, (f role).edited? = role.edited?) :
    Tends config bound (items.map (Item.changed amount f)) s' where
  toPoses := by rwa [posedOf_changed]
  sound := List.forall_mem_map.2 sound
  weights := List.forall_mem_map.2 tends.weights
  config_eq := config_eq.trans tends.config_eq
  sessions := sessions
  within := List.forall_mem_map.2 fun i member d at_ =>
    tends.within i member d ((depths i.role).symm.trans at_)
  given := List.forall_mem_map.2 fun i member away =>
    tends.given i member ((depths i.role).symm.trans away)
  made := List.forall_mem_map.2 fun i member at_ => by
    rw [nextMade]
    exact tends.made i member fun away => at_ ((depths i.role).trans away)
  edits := by
    have same : ((fun i : Item => i.role.edited?) ∘ Item.changed amount f) =
        fun i => i.role.edited? := funext fun i => edited i.role
    rw [List.filterMap_map, same]
    exact tends.edits

end Tends

/-! ### Stays that are reset -/

/-- The columns of the stays of the open sessions. -/
def stayColumns (s : Solver Rat) : List Column :=
  s.sessions.flatMap fun session => session.stays.flatMap fun entry => entry.2.markers.columns

namespace Tends

variable (tends : Tends config bound items s)
include tends

theorem mem_stayColumns : c ∈ s.stayColumns ↔
    ∃ i ∈ items, c ∈ i.columns ∧ ∃ d v target, i.role = .stay d v target ∧ d < s.depth := by
  rw [stayColumns, tends.sessions]
  simp only [List.mem_flatMap, mem_sessionsOf]
  constructor
  · rintro ⟨session, ⟨d, below, rfl⟩, known, member, own⟩
    obtain ⟨i, inside, target, role, same⟩ := mem_stays.1 member
    rw [← same] at own
    exact ⟨i, inside, own, d, known.1, target, role, below⟩
  · rintro ⟨i, inside, own, d, v, target, role, below⟩
    exact ⟨_, ⟨d, below, rfl⟩, (v, i.toInstalled), mem_stays.2 ⟨i, inside, target, role, rfl⟩, own⟩

theorem restricted_of_mem_stayColumns (member : c ∈ s.stayColumns) : c.isRestricted = true := by
  obtain ⟨i, inside, own, -⟩ := tends.mem_stayColumns.1 member
  exact Markers.Fits.restricted (tends.priced.family.fits _ (mem_posedOf inside)) own

theorem currentValue_resetStays : s.resetStays.currentValue = s.currentValue := by
  rw [currentValue_eq, currentValue_eq]
  funext v
  refine (basicSolution_zeroed s.tableau s.stayColumns (.external v)).trans (if_neg fun member => ?_)
  have restricted := tends.restricted_of_mem_stayColumns member
  cases restricted

/-- Resetting the stays moves the targets of stays of the open sessions, and no others. -/
theorem exists_amount : ∃ amount : Tag → Rat,
    s.resetStays.Poses (moved amount (posedOf items)) ∧
    s.simplex.Sustains (posedOf items) s.resetStays.simplex (moved amount (posedOf items)) ∧
    ∀ i ∈ items, (∀ d v target, i.role = .stay d v target → ¬d < s.depth) →
      amount i.constraint.tag = 0 := by
  obtain ⟨k, carries⟩ := tends.priced.carries
  have family := carries.family
  have owned : ∀ c ∈ s.stayColumns, ∃ p ∈ posedOf items, c ∈ p.columns := fun c member => by
    obtain ⟨i, inside, own, -⟩ := tends.mem_stayColumns.1 member
    exact ⟨i.toPosed, mem_posedOf inside, own⟩
  obtain ⟨amount, still, represents⟩ := carries.represents.zeroed family owned
  refine ⟨amount, ⟨tends.priced.moved (alike_zeroed s.tableau s.stayColumns) represents, fun tag => ?_⟩,
    Simplex.sustains_zeroed represents, fun i inside away => ?_⟩
  · rw [find?_moved, Option.map_map]
    exact tends.installed tag
  · refine still i.toPosed (mem_posedOf inside) fun c own member => ?_
    obtain ⟨j, insideJ, ownJ, d, v, target, role, below⟩ := tends.mem_stayColumns.1 member
    have tags : i.toPosed = j.toPosed :=
      family.apart _ (mem_posedOf inside) _ (mem_posedOf insideJ) c own ownJ
    have same : i = j := tends.eq_of_tag inside insideJ (congrArg (·.constraint.tag) tags)
    exact away d v target (same ▸ role) below

/-- All columns of a stay that was reset are zero, so that its variable is where its target is. -/
theorem sound_reset {amount : Tag → Rat} {d : Nat} {target : Rat}
    (poses : s.resetStays.Poses (moved amount (posedOf items))) (inside : i ∈ items)
    (role : i.role = .stay d v target) (below : d < s.depth) :
    (i.changed amount (Role.restayed s.depth s.currentValue)).Sound := by
  have sound := tends.sound i inside
  have zero : (i.toPosed.moved amount).offset s.resetStays.tableau.basicSolution = 0 := by
    refine List.sum_eq_zero fun y member => ?_
    obtain ⟨term, inTerms, rfl⟩ := List.mem_map.1 member
    have onStay := tends.mem_stayColumns.2
      ⟨i, inside, Posed.mem_columns_of_term inTerms, d, v, target, role, below⟩
    have rests := basicSolution_zeroed s.tableau s.stayColumns term.1
    rw [if_pos onStay] at rests
    exact mul_eq_zero_of_right _ rests
  have value : onVariables s.resetStays.tableau.basicSolution v = s.currentValue v := by
    rw [← tends.currentValue_resetStays, currentValue_eq]
  have equation := poses.priced.equation (mem_moved.2 ⟨i.toPosed, mem_posedOf inside, rfl⟩)
  unfold Item.Sound at sound ⊢
  rw [role] at sound
  change Posed.gap _ (onVariables s.resetStays.tableau.basicSolution) +
    Posed.offset _ s.resetStays.tableau.basicSolution = 0 at equation
  rw [zero, add_zero, Posed.gap_moved, sound.2, value] at equation
  rw [Item.changed, role, Role.restayed, if_pos below]
  refine ⟨sound.1, fun x => ?_⟩
  dsimp only
  rw [Posed.gap_moved, sound.2 x]
  linarith

/-- Resetting the stays moves the targets of the open sessions to where the variables are. -/
theorem resetStays : ∃ amount : Tag → Rat,
    Tends config bound (items.map (Item.changed amount (Role.restayed s.depth s.currentValue)))
      s.resetStays ∧
    s.simplex.Sustains (posedOf items) s.resetStays.simplex (posedOf
      (items.map (Item.changed amount (Role.restayed s.depth s.currentValue)))) := by
  obtain ⟨amount, poses, sustains, still⟩ := tends.exists_amount
  refine ⟨amount, tends.changed poses (fun i inside => ?_) rfl rfl ?_
    (fun role => role.depth?_restayed _ _) (fun role => role.edited?_restayed _ _),
    posedOf_changed amount _ items ▸ sustains⟩
  · by_cases away : ∀ d v target, i.role = .stay d v target → ¬d < s.depth
    · rw [Item.changed_of_still (still i inside away) (Role.restayed_of_away _ away)]
      exact tends.sound i inside
    · push Not at away
      obtain ⟨d, v, target, role, below⟩ := away
      exact tends.sound_reset poses inside role below
  · change s.sessions = sessionsOf s.depth _
    rw [tends.sessions]
    refine (sessionsOf_congr fun d below => ?_).symm
    exact sessionAt_map (fun i => Item.stay?_changed_restayed amount _ _)
      (fun i => Item.edit?_changed_restayed amount _ _) items

end Tends

end Solver

end SoftSimplex
