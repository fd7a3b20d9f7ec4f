import SoftSimplex.Proofs.Solver.Tending

/-!
Constraints that join an agenda and leave it.

An installed constraint joins the agenda with its role (`Tends.joined`), and one that is taken back leaves
it after the stays were reset (`Tends.left`). A poised solver is poised again, if what is taken back loosens
no dummy (`Spares`), as only required equations do.
-/

namespace SoftSimplex

open Tableau

namespace Solver

variable {config : Config Rat} {bound : Nat} {items : List Item} {i : Item} {s s' : Solver Rat}
  {c : Constraint Rat} {role : Role}

/-- The agenda once a constraint is taken back: before that the stays of the open sessions are reset. -/
def takenBack (s : Solver Rat) (tag : Tag) (agenda : List Entry) : List Entry :=
  (restayed s.depth s.currentValue agenda).filter fun e => e.constraint.tag ≠ tag

/-- An optional constraint, or a required inequality. -/
def Removable (c : Constraint Rat) : Prop := c.priority ≠ .required ∨ c.comparator ≠ .eq

/-- Once the stays were reset, taking a constraint back loosens no dummy. -/
def Spares (s : Solver Rat) (c : Constraint Rat) : Prop :=
  ∀ known, s.installed.get? c.tag = some known → known.markers.main.isDummy = true →
    ¬s.resetStays.tableau.Loosens known.markers.main

/-- A constraint can join the items of a solver in a role: its tag is new, its session is not among the
open ones, and what it lets be edited is edited by no other. -/
structure Joins (s : Solver Rat) (bound : Nat) (items : List Item) (c : Constraint Rat)
    (role : Role) : Prop where
  new : ∀ i ∈ items, i.constraint.tag ≠ c.tag
  sound : ∀ m, Item.Sound ⟨⟨⟨c, m⟩, 0⟩, role⟩
  within : ∀ d, role.depth? = some d → s.depth ≤ d ∧ d < bound
  given : role.depth? = none → ∃ n, c.tag = .given n
  made : role.depth? ≠ none → ∃ n, c.tag = .made n ∧ n < s.simplex.nextMade
  edits : ∀ v, role.edited? = some v → ∀ i ∈ items, i.role.edited? ≠ some v

namespace Tends

theorem depth_eq (aside : s.Aside s') : s'.depth = s.depth := congrArg List.length aside.sessions

/-- Sessions are listed alike where items that are not theirs come or go. -/
theorem sessions_of_aside {items' : List Item} (tends : Tends config bound items s)
    (aside : s.Aside s') (same : ∀ d < s.depth, sessionAt d items' = sessionAt d items) :
    s'.sessions = sessionsOf s'.depth items' := by
  rw [aside.sessions, depth_eq aside, tends.sessions]
  exact (sessionsOf_congr same).symm

variable (settings : config.Exact) (tends : Tends config bound items s)
include settings tends

omit settings in
/-- The item of an installed constraint is tended with the others. -/
theorem cons {m : Markers Rat} (joins : s.Joins bound items c role)
    (weighs : m.weight = config.weight? c.priority) (aside : s.Aside s')
    (poses : s'.Poses (⟨⟨c, m⟩, 0⟩ :: posedOf items)) :
    Tends config bound (⟨⟨⟨c, m⟩, 0⟩, role⟩ :: items) s' := by
  refine ⟨poses, List.forall_mem_cons.2 ⟨joins.sound m, tends.sound⟩,
    List.forall_mem_cons.2 ⟨weighs, tends.weights⟩, aside.config.trans tends.config_eq, ?_,
    List.forall_mem_cons.2 ⟨fun d at_ => (joins.within d at_).2, tends.within⟩,
    List.forall_mem_cons.2 ⟨joins.given, tends.given⟩,
    List.forall_mem_cons.2 ⟨?_, fun i member at_ => ?_⟩, ?_⟩
  · refine tends.sessions_of_aside aside fun d below => sessionAt_cons_of_ne (fun at_ => ?_) items
    exact absurd (joins.within d at_).1 (Nat.not_le.2 below)
  · rw [aside.nextMade]
    exact joins.made
  · rw [aside.nextMade]
    exact tends.made i member at_
  · rw [List.filterMap_cons]
    split
    · exact tends.edits
    · next v own =>
        refine List.nodup_cons.2 ⟨fun member => ?_, tends.edits⟩
        obtain ⟨i, inside, same⟩ := List.mem_filterMap.1 member
        exact joins.edits v own i inside same

/-- What installing a constraint with a new tag comes to. -/
theorem installing (new : ∀ i ∈ items, i.constraint.tag ≠ c.tag) :
    Installing s (posedOf items) c (config.weight? c.priority) ((install c).run s) := by
  have priced := run_price_of_exact (s := s) (tends.config_eq ▸ settings) c
  rw [tends.config_eq] at priced
  refine tends.toPoses.installing (fun p member => ?_) priced
  obtain ⟨i, inside, rfl⟩ := List.mem_map.1 member
  exact new i inside

/-- An installed constraint joins the agenda, and moves nothing if its sides were equal. -/
theorem joined {m : Markers Rat} (joins : s.Joins bound items c role)
    (ran : (install c).run s = (.ok m, s')) :
    Tends config bound (⟨⟨⟨c, m⟩, 0⟩, role⟩ :: items) s' ∧ s.Aside s' ∧
      s.simplex.Sustains (posedOf items) s'.simplex (posedOf (⟨⟨⟨c, m⟩, 0⟩, role⟩ :: items)) ∧
      (s.simplex.Poised (posedOf items) → c.left.eval s.currentValue = c.right.eval s.currentValue →
        s'.currentValue = s.currentValue) := by
  have installing := tends.installing settings joins.new
  rw [ran] at installing
  cases installing with
  | installed weighs aside poses sustains still =>
      have tends' := tends.cons joins weighs aside poses
      have weighted := tends'.weighted settings
      exact ⟨tends', aside, sustains weighted, still weighted⟩

/-- A constraint whose sides are equal where a poised solver stands is installed. -/
theorem accepts (poised : s.simplex.Poised (posedOf items))
    (new : ∀ i ∈ items, i.constraint.tag ≠ c.tag)
    (balanced : c.left.eval s.currentValue = c.right.eval s.currentValue) :
    ∃ m s', (install c).run s = (.ok m, s') := by
  have installing := tends.installing settings new
  generalize (install c).run s = ended at installing
  cases installing with
  | installed => exact ⟨_, _, rfl⟩
  | refused missed _ =>
      exact absurd balanced
        (missed (tends.weighted settings) (fun w own => (settings.weight_pos _ w own).le) poised)

omit settings in
/-- What is taken back is on the agenda. -/
theorem exists_of_uninstall (ran : (uninstall c).run s = (.ok (), s')) :
    ∃ i ∈ items, i.constraint.tag = c.tag := by
  obtain ⟨p, member, tag⟩ := tends.toPoses.exists_of_uninstall ran
  obtain ⟨i, inside, rfl⟩ := List.mem_map.1 member
  exact ⟨i, inside, tag⟩

omit settings in
/-- The items that are left are tended, where those that were taken back belong to no open session. -/
theorem filtered {tag : Tag} (aside : s.Aside s') (poses : s'.Poses (withoutTag (posedOf items) tag))
    (unlisted : ∀ i ∈ items, i.constraint.tag = tag → ∀ d < s.depth, i.role.depth? ≠ some d) :
    Tends config bound (items.filter fun i => i.constraint.tag ≠ tag) s' := by
  have kept (j : Item) (left : j ∈ items.filter fun i => i.constraint.tag ≠ tag) : j ∈ items :=
    List.mem_of_mem_filter left
  refine ⟨?_, fun j left => tends.sound j (kept j left), fun j left => tends.weights j (kept j left),
    aside.config.trans tends.config_eq, ?_, fun j left => tends.within j (kept j left),
    fun j left => tends.given j (kept j left), fun j left => ?_,
    tends.edits.sublist (List.filter_sublist.filterMap _)⟩
  · rwa [posedOf_filter]
  · refine tends.sessions_of_aside aside fun d below => sessionAt_filter fun j inside dropped => ?_
    exact unlisted j inside (by simpa using dropped) d below
  · rw [aside.nextMade]
    exact tends.made j (kept j left)

/-- What can be taken back is not marked by a dummy. -/
theorem not_dummy_of_removable (member : i ∈ items) (removable : Removable i.constraint) :
    i.markers.main.isDummy = false := by
  have fits := tends.priced.family.fits _ (mem_posedOf member)
  rcases Markers.Fits.pivotable_or_dummy fits (Markers.main_mem_columns _) with
    pivotable | ⟨-, required, equation⟩
  · exact Column.not_dummy_of_pivotable pivotable
  · have weight := tends.weights i member
    rw [required] at weight
    have needed := settings.weight_eq_none_iff.1 weight.symm
    exact removable.elim (fun optional => absurd needed optional)
      fun unequal => absurd (equation needed) unequal

/-- Taking back what can be taken back loosens no dummy. -/
theorem spares_of_removable (member : i ∈ items) (tag : i.constraint.tag = c.tag)
    (removable : Removable i.constraint) : s.Spares c := by
  intro known installed dummy
  have own := tends.installed_of_mem (mem_posedOf member)
  rw [tag, installed] at own
  obtain rfl := Option.some.inj own
  rw [tends.not_dummy_of_removable settings member removable] at dummy
  cases dummy

/-- Taking a constraint back is answered, if it loosens no dummy. -/
theorem answers (poised : s.simplex.Poised (posedOf items)) (member : i ∈ items)
    (tag : i.constraint.tag = c.tag) (spares : s.Spares c) :
    ∃ s', (uninstall c).run s = (.ok (), s') := by
  obtain ⟨amount, reset, sustains⟩ := tends.resetStays
  have inside := List.mem_map_of_mem (f := Item.changed amount (Role.restayed s.depth s.currentValue))
    member
  have uninstalling := reset.uninstalling (s := s) (mem_posedOf inside) tag
  generalize (uninstall c).run s = ended at uninstalling
  cases uninstalling with
  | uninstalled => exact ⟨_, rfl⟩
  | failed reason =>
      have installed := reset.installed_of_mem (mem_posedOf inside)
      exact absurd (spares _ (tag ▸ installed))
        (reason (reset.weighted settings) (sustains poised).1)

/-- A constraint that is taken back leaves the agenda, once the stays were reset. -/
theorem left (member : i ∈ items) (tag : i.constraint.tag = c.tag)
    (unlisted : ∀ d, i.role.depth? = some d → s.depth ≤ d)
    (ran : (uninstall c).run s = (.ok (), s')) :
    ∃ items', Tends config bound items' s' ∧ s.Aside s' ∧
      agendaOf items' = takenBack s c.tag (agendaOf items) ∧
      (s.Spares c → s.simplex.Sustains (posedOf items) s'.simplex (posedOf items')) := by
  obtain ⟨amount, reset, sustains⟩ := tends.resetStays
  have agenda := agendaOf_changed amount (Role.restayed s.depth s.currentValue) items
  have inside : i.changed amount (Role.restayed s.depth s.currentValue) ∈
      items.map (Item.changed amount (Role.restayed s.depth s.currentValue)) :=
    List.mem_map_of_mem member
  have depth : (i.changed amount (Role.restayed s.depth s.currentValue)).role.depth? =
      i.role.depth? := i.role.depth?_restayed _ _
  have own : (i.changed amount (Role.restayed s.depth s.currentValue)).constraint.tag = c.tag := tag
  generalize i.changed amount (Role.restayed s.depth s.currentValue) = changed at inside depth own
  generalize items.map (Item.changed amount (Role.restayed s.depth s.currentValue)) = items'
    at reset sustains agenda inside
  have uninstalling := reset.uninstalling (s := s) (mem_posedOf inside) own
  rw [ran] at uninstalling
  cases uninstalling with
  | uninstalled aside poses sustained =>
      rw [own] at poses sustained
      refine ⟨items'.filter fun j => j.constraint.tag ≠ c.tag,
        reset.filtered aside poses fun j member' tag' d below at_ => ?_,
        ⟨aside.config, aside.sessions, aside.needsRepair, aside.nextMade⟩, ?_, fun spares => ?_⟩
      · rw [reset.eq_of_tag member' inside (tag'.trans own.symm), depth] at at_
        exact absurd (unlisted d at_) (Nat.not_le.2 below)
      · rw [agendaOf_filter, agenda]
        rfl
      · rw [posedOf_filter]
        exact sustains.trans (sustained (reset.weighted settings)
          (spares _ (own ▸ reset.installed_of_mem (mem_posedOf inside))))

omit settings in
/-- Optimising keeps an agenda, and leaves a solver as it is that is optimised already. -/
theorem optimized (ran : (onSimplex Simplex.optimize).run s = (.ok (), s')) :
    ∃ inner, s' = s.withSimplex inner ∧ Tends config bound items s' ∧
      (s.tableau.Recorded → inner.tableau.Recorded) ∧
      (s.simplex.needsOptimize = false → inner = s.simplex) := by
  generalize ranInner : Simplex.optimize.run s.simplex = ended at ran
  obtain ⟨answer, inner⟩ := ended
  cases answer with
  | error fault =>
      rw [run_onSimplex_of_error ranInner] at ran
      cases ran
  | ok answer =>
      rw [run_onSimplex_of_ok ranInner] at ran
      obtain ⟨-, rfl⟩ := Prod.mk.inj ran
      obtain ⟨turned, -⟩ := Simplex.turns_of_optimize tends.priced.exact rfl ranInner
      refine ⟨inner, rfl, tends.congr (tends.priced.turned turned) rfl rfl rfl turned.nextMade.ge,
        turned.turns.recorded tends.priced.exact, fun done => ?_⟩
      rw [Simplex.run_optimize_of_not_needed done] at ranInner
      exact (Prod.mk.inj ranInner).2.symm

end Tends

/-! ### Calls of callers -/

namespace Tends

variable (settings : config.Exact) (tends : Tends config s.depth items s)
include settings tends

/-- Adding a constraint of a caller puts it onto the agenda. -/
theorem added (given : ∃ n, c.tag = .given n) (ran : (add c).run s = (.ok (), s')) :
    ∃ items', Tends config s'.depth items' s' ∧ s.Aside s' ∧
      agendaOf items' = ⟨c, .given⟩ :: agendaOf items ∧
      s.simplex.Sustains (posedOf items) s'.simplex (posedOf items') := by
  have new : s.has c = false := by
    cases known : s.has c with
    | false => rfl
    | true =>
        rw [run_add_of_has known] at ran
        cases ran
  rw [run_add_of_new new] at ran
  generalize installed : (install c).run s = ended at ran
  obtain ⟨answer, s₁⟩ := ended
  cases answer with
  | error fault => cases ran
  | ok m =>
      obtain ⟨-, rfl⟩ := Prod.mk.inj ran
      have joins : s.Joins s.depth items c .given :=
        { new := fun i member same => by
            rw [tends.has_iff.2 ⟨_, mem_posedOf member, same⟩] at new
            cases new
          sound := fun _ => rfl
          within := fun _ at_ => by cases at_
          given := fun _ => given
          made := fun away => absurd rfl away
          edits := fun _ own => by cases own }
      obtain ⟨tends', aside, sustains, -⟩ := tends.joined settings joins installed
      exact ⟨_, (depth_eq aside).symm ▸ tends', aside, rfl, sustains⟩

/-- Removing a constraint of a caller takes it off the agenda. -/
theorem removed (given : ∃ n, c.tag = .given n) (ran : (remove c).run s = (.ok (), s')) :
    ∃ items', Tends config s'.depth items' s' ∧ s.Aside s' ∧
      agendaOf items' = takenBack s c.tag (agendaOf items) ∧
      (s.Spares c → s.simplex.Sustains (posedOf items) s'.simplex (posedOf items')) := by
  obtain ⟨i, member, tagged⟩ := tends.exists_of_uninstall ran
  have isGiven : i.role.depth? = none := by
    by_contra at_
    obtain ⟨n, made, -⟩ := tends.made i member at_
    obtain ⟨k, given⟩ := given
    rw [tagged, given] at made
    cases made
  obtain ⟨items', tends', aside, agenda, sustains⟩ :=
    tends.left settings member tagged (fun d at_ => by
      rw [isGiven] at at_
      cases at_) ran
  exact ⟨items', (depth_eq aside).symm ▸ tends', aside, agenda, sustains⟩

end Tends

end Solver

end SoftSimplex
