import SoftSimplex.Proofs.Solver.Installing
import SoftSimplex.Solver.Remove

/-!
Taking constraints of any priority back.

First the errors of the constraint cost nothing any more, then its main column is taken out with its row,
and then what is left of its columns is struck out (`Carries.withdrawn`). What is left represents the
other constraints, and optimising poises it if it is steady (`Poses.uninstalling`).
-/

namespace SoftSimplex

variable {posed : List Posed} {p : Posed} {x : Variable → Rat}

theorem Weighted.withoutTag (weighted : Weighted posed) (tag : Tag) :
    Weighted (withoutTag posed tag) :=
  fun q member => weighted q (mem_withoutTag.1 member).1

namespace Tableau

variable {t : Tableau Rat} {goal : (Column → Rat) → Rat} {columns : List Column}

/-- The tableau in which columns are struck out. -/
def struckOut (t : Tableau Rat) (columns : List Column) : Tableau Rat :=
  columns.foldl (fun t c => (t.removeRow c).removeColumn c) t

/-- Columns that neither a constraint nor the objective looks at can be struck out. -/
theorem Represents.struckOut (represents : t.Represents posed goal)
    (restricted : ∀ c ∈ columns, c.isRestricted = true)
    (others : ∀ c ∈ columns, ∀ q ∈ posed, c ∉ q.columns)
    (independent : ∀ c ∈ columns, ∀ σ x, goal (Function.update σ c x) = goal σ) :
    (t.struckOut columns).Represents posed goal ∧
      (∀ key, (t.struckOut columns).rows.get? key = t.rows.get? key) ∧
      (∀ d ∈ (t.struckOut columns).scope, d ∉ columns ∧ d ∈ t.scope) ∧
      (t.Recorded → (t.struckOut columns).Recorded) := by
  induction columns generalizing t with
  | nil => exact ⟨represents, fun _ => rfl, fun _ known => ⟨List.not_mem_nil, known⟩, id⟩
  | cons c rest ih =>
      obtain ⟨first, rows, scope, recorded⟩ := represents.struck (restricted c List.mem_cons_self)
        (others c List.mem_cons_self) (independent c List.mem_cons_self)
      obtain ⟨last, rows', scope', recorded'⟩ := ih first
        (fun d member => restricted d (List.mem_cons_of_mem _ member))
        (fun d member => others d (List.mem_cons_of_mem _ member))
        fun d member => independent d (List.mem_cons_of_mem _ member)
      refine ⟨last, fun key => (rows' key).trans (rows key), fun d known => ?_,
        fun before => recorded' (recorded before)⟩
      obtain ⟨away, left⟩ := scope' d known
      obtain ⟨different, before⟩ := scope d left
      exact ⟨List.not_mem_cons_of_ne_of_not_mem different away, before⟩

end Tableau

namespace Simplex

open Tableau

variable {s inner : Simplex Rat}

/-- The tableau in which the errors of a constraint cost nothing any more. -/
def forgiven (s : Simplex Rat) (p : Posed) : Simplex Rat :=
  s.withTableau (s.tableau.penalized (-p.markers.weight.getD 0) p.markers.errors)

/-- The tableau in which the columns of a constraint other than its main one are struck out. -/
def cleared (s : Simplex Rat) (p : Posed) : Simplex Rat :=
  s.withTableau (s.tableau.struckOut (p.markers.errors.filter (· ≠ p.markers.main)))

/-- Taking a constraint out loosens no dummy. -/
def Spares (s : Simplex Rat) (p : Posed) : Prop :=
  p.markers.main.isDummy = true → ¬s.tableau.Loosens p.markers.main

theorem forgiven_of_required (fits : p.Fits) (required : p.markers.weight = none) :
    s.forgiven p = s := by
  rw [forgiven, Markers.Fits.errors_eq_nil fits required]
  rfl

section

variable {k : Rat} (carries : s.Carries posed fun σ => k + costs posed σ) (member : p ∈ posed)
include carries member

theorem Carries.plain_errors (c : Column) (error : c ∈ p.markers.errors) : c.isObjective = false :=
  Column.not_objective_of_restricted (Markers.Fits.restricted (carries.family.fits p member)
    (Markers.Fits.errors_subset (carries.family.fits p member) error))

/-- What is forgiven is not part of the objective. -/
theorem Carries.forgiven : (s.forgiven p).Carries posed fun σ =>
    k + costs (withoutTag posed p.constraint.tag) σ := by
  have fits := carries.family.fits p member
  have plain := carries.plain_errors member
  obtain ⟨-, -, known⟩ := carries.represents.toWellFormed.penalized carries.represents.stored plain
    (-p.markers.weight.getD 0)
  refine ⟨(carries.represents.penalized carries.family plain _).congr fun σ => ?_, carries.family,
    fun c inside => ?_, carries.below⟩
  · rw [carries.family.costs_eq_add member, Posed.cost]
    ring
  · rcases known c inside with error | before
    · exact carries.below p member c (Markers.Fits.errors_subset fits error)
    · exact carries.fresh c before

theorem Carries.apart_forgiven : s.tableau.Apart (s.forgiven p).tableau .objective := by
  obtain ⟨-, apart, -⟩ := carries.represents.toWellFormed.penalized carries.represents.stored
    (carries.plain_errors member) (-p.markers.weight.getD 0)
  exact apart

/-- The other constraints are carried when a constraint was forgiven, removed and cleared, and its
columns are forgotten. -/
theorem Carries.withdrawn (removed : (s.forgiven p).Removed p p.constraint.tag inner) :
    ((inner.cleared p).Carries (withoutTag posed p.constraint.tag) fun σ =>
        k + costs (withoutTag posed p.constraint.tag) σ) ∧
      (∀ key, (inner.cleared p).tableau.rows.get? key = inner.tableau.rows.get? key) ∧
      (s.tableau.Recorded → (inner.cleared p).tableau.Recorded) ∧
      ∀ c ∈ (inner.cleared p).tableau.scope, c ≠ p.markers.main ∧ c ∉ p.markers.errors := by
  have family := carries.family
  have fits := family.fits p member
  have others {c : Column} (own : c ∈ p.columns) (q : Posed)
      (inRest : q ∈ withoutTag posed p.constraint.tag) : c ∉ q.columns := fun inQ =>
    (mem_withoutTag.1 inRest).2 (congrArg (·.constraint.tag)
      (family.apart q (mem_withoutTag.1 inRest).1 p member c inQ own))
  have independent {c : Column} (own : c ∈ p.columns) (σ : Column → Rat) (x : Rat) :
      k + costs (withoutTag posed p.constraint.tag) (Function.update σ c x) =
        k + costs (withoutTag posed p.constraint.tag) σ := by
    refine congrArg (k + ·) ((family.withoutTag _).costs_congr fun q inRest d inQ => ?_)
    refine Function.update_of_ne ?_ _ _
    rintro rfl
    exact others own q inRest inQ
  obtain ⟨carries', recorded, -⟩ := removed.carries (carries.forgiven member) member
    (independent p.markers.main_mem_columns)
  have own : ∀ c ∈ p.markers.errors.filter (· ≠ p.markers.main), c ∈ p.columns := fun c left =>
    Markers.Fits.errors_subset fits (List.mem_filter.1 left).1
  obtain ⟨represents, rows, scope, recorded'⟩ := carries'.represents.struckOut
    (fun c left => Markers.Fits.restricted fits (own c left))
    (fun c left => others (own c left)) fun c left => independent (own c left)
  refine ⟨⟨represents, carries'.family, fun c known => carries'.fresh c (scope c known).2,
    carries'.below⟩, rows, fun before => recorded' (recorded fun key pending => ?_),
    fun c known => ?_⟩
  · have apart := carries.apart_forgiven member
    rw [apart.infeasible] at pending
    exact before key pending
  · obtain ⟨away, left⟩ := scope c known
    have different := (removed.mem_scope (carries.forgiven member) member left).1
    exact ⟨different, fun error => away (List.mem_filter.2 ⟨error, decide_eq_true different⟩)⟩

/-- The rows that are left are those of a tableau in which the main column was made basic. -/
theorem Carries.exposed (removed : (s.forgiven p).Removed p p.constraint.tag inner) :
    ∃ t', (s.forgiven p).tableau.Exposed p.markers.main t' ∧ (t'.rows.get? p.markers.main).isSome ∧
      ∀ key, (inner.cleared p).tableau.rows.get? key = (t'.removeRow p.markers.main).rows.get? key := by
  obtain ⟨-, rows, -⟩ := carries.withdrawn member removed
  obtain ⟨t', exposed, same⟩ := removed.tableau
  obtain ⟨-, inside, -, -⟩ :=
    exposed.represents (carries.forgiven member).represents carries.family member rfl
  exact ⟨t', exposed, inside, fun key => (rows key).trans (by rw [same])⟩

/-- Taking a constraint out makes no restricted row negative. -/
theorem Carries.upright_withdrawn (removed : (s.forgiven p).Removed p p.constraint.tag inner)
    (upright : s.tableau.Upright) : (inner.cleared p).tableau.Upright := by
  have exact := (carries.forgiven member).represents.toExact
  have apart := carries.apart_forgiven member
  obtain ⟨t', exposed, inside, rows⟩ := carries.exposed member removed
  have left := exposed.upright exact inside (apart.upright upright)
  exact fun key row found => left key row ((rows key).symm.trans found)

theorem Carries.not_loosens (steady : s.tableau.Steady) (spares : s.Spares p) :
    ¬(s.forgiven p).tableau.Loosens p.markers.main := by
  cases dummy : p.markers.main.isDummy with
  | true =>
      rw [forgiven_of_required (carries.family.fits p member) (Posed.Fits.required_of_dummy
        (carries.family.fits p member) p.markers.main_mem_columns dummy)]
      exact spares dummy
  | false => exact ((carries.apart_forgiven member).retains steady).insulated.not_loosens dummy

/-- What is left without a constraint that loosens no dummy is steady, and shaped if the solver was. -/
theorem Carries.steady_withdrawn (steady : s.tableau.Steady) (spares : s.Spares p)
    (removed : (s.forgiven p).Removed p p.constraint.tag inner) :
    (inner.cleared p).tableau.Steady ∧ (s.tableau.Shaped → (inner.cleared p).tableau.Shaped) := by
  have exact := (carries.forgiven member).represents.toExact
  have apart := carries.apart_forgiven member
  have tight := carries.not_loosens member steady spares
  obtain ⟨t', exposed, inside, rows⟩ := carries.exposed member removed
  have left (key : Column) (row : Row Rat) (_ : key.isRestricted = true)
      (found : (inner.cleared p).tableau.rows.get? key = some row) :
      (t'.removeRow p.markers.main).rows.get? key = some row := (rows key).symm.trans found
  exact ⟨(exposed.steady exact inside tight (apart.retains steady).toSteady).of_rows left,
    fun shaped => (exposed.shaped exact inside tight (apart.shaped shaped)).of_rows left⟩

end

/-- The other constraints are priced when a constraint was forgiven, removed and cleared. -/
theorem Priced.withdrawn (priced : s.Priced posed) (member : p ∈ posed)
    (removed : (s.forgiven p).Removed p p.constraint.tag inner) :
    (inner.cleared p).Priced (withoutTag posed p.constraint.tag) ∧
      (∀ key, (inner.cleared p).tableau.rows.get? key = inner.tableau.rows.get? key) ∧
      (s.tableau.Recorded → (inner.cleared p).tableau.Recorded) := by
  obtain ⟨k, carries⟩ := priced.carries
  obtain ⟨carries', rows, recorded, -⟩ := carries.withdrawn member removed
  refine ⟨⟨⟨k, carries'⟩, fun tag => ?_⟩, rows, recorded⟩
  change inner.registered.get? tag = _
  rw [removed.registered, Sorted.Map.get?_erase, find?_withoutTag]
  split
  · rfl
  · exact priced.registered tag

/-- A solver is poised again without a constraint that loosens no dummy. -/
theorem Poised.withdrawn (poised : s.Poised posed) (member : p ∈ posed) (weighted : Weighted posed)
    (spares : s.Spares p) (removed : (s.forgiven p).Removed p p.constraint.tag inner) :
    ∃ s', optimize.run (inner.cleared p) = (.ok (), s') ∧
      s'.Poised (withoutTag posed p.constraint.tag) ∧ (s.tableau.Shaped → s'.tableau.Shaped) := by
  obtain ⟨priced, -, recorded⟩ := poised.toPriced.withdrawn member removed
  obtain ⟨k, carries⟩ := poised.carries
  obtain ⟨steady, shaped⟩ := carries.steady_withdrawn member poised.steady spares removed
  obtain ⟨s', ran, poised', retains, -⟩ := priced.poise (weighted.withoutTag _) steady
    (recorded poised.recorded) removed.needed
  exact ⟨s', ran, poised', fun before => retains.shaped (shaped before)⟩

end Simplex

namespace Solver

open Tableau

variable {s : Solver Rat} {c : Constraint Rat}

/-! ### Runs of `uninstall` -/

/-- The solver that has one constraint less installed. -/
def withErased (s : Solver Rat) (tag : Tag) (simplex : Simplex Rat) : Solver Rat :=
  { s with simplex, installed := s.installed.erase tag }

/-- The first part of taking a constraint back: the stays are reset, and its errors cost nothing any
more. -/
def forgive (c : Constraint Rat) : Step Rat (Solver Rat) (Markers Rat) := do
  let found ← Step.ofOption (.constraintNotFound c) ((← Step.get).installed.get? c.tag)
  Step.modify fun s => { s with installed := s.installed.erase c.tag }
  Step.modify resetStays
  match found.markers.weight with
  | none => pure ()
  | some weight => Step.forEach found.markers.errors fun error => penalize error (-weight)
  return found.markers

/-- Taking a constraint back, but for optimising what is left. -/
def withdraw (c : Constraint Rat) : Step Rat (Solver Rat) Unit := do
  let markers ← forgive c
  onSimplex (Simplex.remove c)
  Step.forEach (markers.errors.filter (· ≠ markers.main)) fun error =>
    changeTableau fun t => (t.removeRow error).removeColumn error

theorem uninstall_eq (c : Constraint Rat) :
    uninstall c = withdraw c >>= fun _ => onSimplex Simplex.optimize := by
  simp only [withdraw, forgive, Step.bind_assoc]
  refine congrArg _ (funext fun s => congrArg _ (funext fun found => ?_))
  obtain ⟨_, main, sub, errors, weight⟩ := found
  cases weight with
  | none => rfl
  | some w =>
      simp only [Step.bind_assoc]
      rfl

theorem run_forEach_strike (columns : List Column) (s : Solver Rat) :
    (Step.forEach columns fun c => changeTableau fun t => (t.removeRow c).removeColumn c).run s =
      (.ok (), s.withSimplex (s.simplex.withTableau (s.simplex.tableau.struckOut columns))) := by
  induction columns generalizing s with
  | nil => rfl
  | cons c rest ih =>
      have first : (changeTableau fun t : Tableau Rat => (t.removeRow c).removeColumn c).run s =
        (.ok (), s.withSimplex
          (s.simplex.withTableau ((s.simplex.tableau.removeRow c).removeColumn c))) := rfl
      rw [Step.run_forEach_cons_of_ok (x := fun c => changeTableau fun t : Tableau Rat =>
        (t.removeRow c).removeColumn c) first, ih]
      rfl

section

variable (wf : s.resetStays.simplex.tableau.WellFormed)
  (stored : (s.resetStays.simplex.tableau.rows.get? .objective).isSome) (fits : p.Fits)
  (found : s.installed.get? c.tag = some p.toInstalled)
include wf stored fits found

theorem run_forgive : (forgive c).run s =
    (.ok p.markers, s.resetStays.withErased c.tag (s.resetStays.simplex.forgiven p)) := by
  have plain : ∀ c ∈ p.markers.errors, c.isObjective = false := fun c error =>
    Column.not_objective_of_restricted (Markers.Fits.restricted fits
      (Markers.Fits.errors_subset fits error))
  let s₁ := s.resetStays.withErased c.tag s.resetStays.simplex
  rw [forgive, Step.run_bind_get, found, Step.run_bind_ofOption_some]
  dsimp only
  rw [Step.run_bind_modify, Step.run_bind_modify]
  cases weight : p.markers.weight with
  | none =>
      rw [Simplex.forgiven_of_required fits weight]
      rfl
  | some w =>
      have forgiving : (Step.forEach p.markers.errors fun error => penalize error (-w)).run s₁ =
          (.ok (), s₁.withSimplex (s.resetStays.simplex.forgiven p)) := by
        rw [Simplex.forgiven, weight]
        exact run_forEach_penalize (s := s₁) wf stored plain (-w)
      exact Step.run_bind_of_ok forgiving

variable (registered : s.simplex.registered.get? c.tag = some ⟨p.constraint, p.markers.main⟩)
include registered

/-- An installed constraint is withdrawn. -/
theorem run_withdraw : ∃ inner, (s.resetStays.simplex.forgiven p).Removed p c.tag inner ∧
    (withdraw c).run s = (.ok (), s.resetStays.withErased c.tag (inner.cleared p)) := by
  have plain : ∀ c ∈ p.markers.errors, c.isObjective = false := fun c error =>
    Column.not_objective_of_restricted (Markers.Fits.restricted fits
      (Markers.Fits.errors_subset fits error))
  have forgivenWf : (s.resetStays.simplex.forgiven p).tableau.WellFormed :=
    (wf.penalized stored plain _).1
  obtain ⟨inner, removing, removed⟩ := Simplex.run_remove (p := p) forgivenWf registered rfl
  refine ⟨inner, removed, ?_⟩
  have removal : (onSimplex (Simplex.remove c)).run
      (s.resetStays.withErased c.tag (s.resetStays.simplex.forgiven p)) =
        (.ok (), s.resetStays.withErased c.tag inner) := run_onSimplex_of_ok removing
  rw [withdraw, Step.run_bind_of_ok (run_forgive wf stored fits found), Step.run_bind_of_ok removal,
    run_forEach_strike]
  rfl

/-- Taking an installed constraint back comes down to optimising what is left. -/
theorem run_uninstall : ∃ inner, (s.resetStays.simplex.forgiven p).Removed p c.tag inner ∧
    (uninstall c).run s =
      ((Simplex.optimize.run (inner.cleared p)).1,
        s.resetStays.withErased c.tag (Simplex.optimize.run (inner.cleared p)).2) := by
  obtain ⟨inner, removed, ran⟩ := run_withdraw wf stored fits found registered
  refine ⟨inner, removed, ?_⟩
  rw [uninstall_eq, Step.run_bind_of_ok ran]
  rfl

end

theorem Poses.run_withdraw (poses : s.resetStays.Poses posed) (member : p ∈ posed)
    (tag : p.constraint.tag = c.tag) : ∃ inner,
      (s.resetStays.simplex.forgiven p).Removed p p.constraint.tag inner ∧
      (forgive c).run s =
        (.ok p.markers, s.resetStays.withErased c.tag (s.resetStays.simplex.forgiven p)) ∧
      (withdraw c).run s = (.ok (), s.resetStays.withErased c.tag (inner.cleared p)) := by
  have priced := poses.priced
  have wf := priced.exact.toWellFormed
  have stored := Option.isSome_iff_exists.2 priced.stored
  have fits := priced.family.fits p member
  have found := poses.installed_of_mem member
  have registered := priced.registered_of_mem member
  rw [tag] at found registered ⊢
  obtain ⟨inner, removed, ran⟩ := Solver.run_withdraw (s := s) (c := c) wf stored fits found registered
  exact ⟨inner, removed, run_forgive (s := s) wf stored fits found, ran⟩

theorem Poses.run_uninstall (poses : s.resetStays.Poses posed) (member : p ∈ posed)
    (tag : p.constraint.tag = c.tag) : ∃ inner,
      (s.resetStays.simplex.forgiven p).Removed p p.constraint.tag inner ∧
      (uninstall c).run s =
        ((Simplex.optimize.run (inner.cleared p)).1,
          s.resetStays.withErased c.tag (Simplex.optimize.run (inner.cleared p)).2) := by
  obtain ⟨inner, removed, -, ran⟩ := poses.run_withdraw member tag
  refine ⟨inner, removed, ?_⟩
  rw [uninstall_eq, Step.run_bind_of_ok ran]
  rfl

/-! ### The family of what is left -/

/-- What is taken back was posed. -/
theorem Poses.exists_of_uninstall (poses : s.Poses posed) (ran : (uninstall c).run s = (.ok (), s')) :
    ∃ p ∈ posed, p.constraint.tag = c.tag := by
  by_contra unknown
  have absent : s.installed.get? c.tag = none :=
    poses.not_installed fun p member tagged => unknown ⟨p, member, tagged⟩
  rw [uninstall, Step.run_bind_get, absent] at ran
  cases ran

theorem Poses.withErased {simplex : Simplex Rat} {tag : Tag} (poses : s.Poses posed)
    (priced : simplex.Priced (withoutTag posed tag)) :
    (s.withErased tag simplex).Poses (withoutTag posed tag) where
  priced := priced
  installed other := by
    rw [find?_withoutTag, Solver.withErased, Sorted.Map.get?_erase, poses.installed]
    split <;> rfl

/-- What taking a constraint back may come to. -/
inductive Uninstalling (s : Solver Rat) (posed : List Posed) (p : Posed) :
    Except (Fault Rat) Unit × Solver Rat → Prop where
  | uninstalled {s' : Solver Rat} (aside : s.Aside s')
      (poses : s'.Poses (withoutTag posed p.constraint.tag))
      (sustains : Weighted posed → s.simplex.Spares p →
        s.simplex.Sustains posed s'.simplex (withoutTag posed p.constraint.tag)) :
      Uninstalling s posed p (.ok (), s')
  | failed {fault : Fault Rat} {s' : Solver Rat}
      (reason : Weighted posed → s.simplex.Poised posed → ¬s.simplex.Spares p) :
      Uninstalling s posed p (.error fault, s')

/-- An answer says that the constraint was taken back, and there is one if the solver was poised and
taking the constraint out loosens no dummy. -/
theorem Poses.uninstalling (poses : s.resetStays.Poses posed) (member : p ∈ posed)
    (tag : p.constraint.tag = c.tag) :
    Uninstalling s.resetStays posed p ((uninstall c).run s) := by
  obtain ⟨inner, removed, ran⟩ := poses.run_uninstall member tag
  obtain ⟨priced, -, -⟩ := poses.priced.withdrawn member removed
  rw [ran]
  generalize optimized : Simplex.optimize.run (inner.cleared p) = last
  obtain ⟨answer, optimum⟩ := last
  cases answer with
  | error fault =>
      refine .failed fun weighted poised spares => ?_
      obtain ⟨s', answered, -⟩ := poised.withdrawn member weighted spares removed
      rw [answered] at optimized
      cases optimized
  | ok answer =>
      obtain ⟨turned, -⟩ := Simplex.turns_of_optimize priced.exact rfl optimized
      have left := poses.withErased (priced.turned turned)
      rw [tag] at left
      refine .uninstalled ⟨rfl, rfl, rfl, turned.nextMade.trans removed.nextMade⟩ (tag ▸ left)
        fun weighted spares poised => ?_
      obtain ⟨s', answered, sustained⟩ := poised.withdrawn member weighted spares removed
      rw [answered] at optimized
      obtain ⟨-, rfl⟩ := Prod.mk.inj optimized
      exact sustained

end Solver

end SoftSimplex
