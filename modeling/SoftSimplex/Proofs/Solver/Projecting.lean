import SoftSimplex.Proofs.Solver.Operating

/-!
Taking a constraint back projects the rows.

The rows that are left hold for those assignments which hold for the old rows with some values of the
columns of the constraint, and these columns are gone (`Tableau.Projected`). The tableau may have any shape:
the main column or an error may be basic, rows may be negative, suggestions may await repair. That is so
between operations, and while the constraints of a session are taken back one after another
(`Visited.withdraw_spec`).
-/

namespace SoftSimplex

open Tableau

variable {posed : List Posed} {p : Posed} {t : Tableau Rat}

/-- The other constraints hold where all of them hold with some values of the columns of one of them. -/
theorem equations_withoutTag_iff (family : Family posed) (member : p ∈ posed) (σ : Column → Rat) :
    (∀ q ∈ withoutTag posed p.constraint.tag, q.Equation σ) ↔
      ∃ τ, (∀ d, d ∉ p.columns → τ d = σ d) ∧ ∀ q ∈ posed, q.Equation τ := by
  constructor
  · intro others
    -- The main column alone makes the equation of the constraint hold.
    obtain ⟨x, own⟩ := Posed.exists_equation (family.fits p member) σ
    refine ⟨Function.update σ p.markers.main x, fun d away => Function.update_of_ne ?_ _ _,
      (family.forall_mem_iff member).2 ⟨own, fun q inRest => ?_⟩⟩
    · rintro rfl
      exact away p.markers.main_mem_columns
    · exact (equation_update_other family member inRest p.markers.main_mem_columns σ x).2 (others q inRest)
  · rintro ⟨τ, same, all⟩ q inRest
    exact (equation_congr_other family member inRest same).1 (all q (mem_withoutTag.1 inRest).1)

namespace Tableau

/-- A tableau is what is left of another one without some columns: it does not know them, it is obeyed where
the other one is with some values of them, and no restricted row became negative. -/
structure Projected (t : Tableau Rat) (columns : List Column) (t' : Tableau Rat) : Prop where
  forgets : ∀ d ∈ columns, t'.rows.get? d = none ∧ t'.index.get? d = none ∧ ∀ key, ¬t'.Mentions key d
  obeys : ∀ σ, t'.Obeys σ ↔ ∃ τ, (∀ d, d ∉ columns → τ d = σ d) ∧ t.Obeys τ
  upright : t.Upright → t'.Upright

/-- The main column of a constraint is basic, or some row leaves for it. -/
theorem Represents.basic_or_exit {goal : (Column → Rat) → Rat} (represents : t.Represents posed goal)
    (family : Family posed) (member : p ∈ posed) : t.isBasic p.markers.main = true ∨
      ∃ exit, Simplex.removalExit? t p.markers.main = .ok (some exit) := by
  cases inside : t.isBasic p.markers.main with
  | true => exact .inl rfl
  | false =>
      have outside : t.rows.get? p.markers.main = none := by
        simpa [isBasic, Sorted.Map.contains] using inside
      obtain ⟨key, plain, mentioned⟩ := represents.mentioned family member outside
      rcases represents.toWellFormed.removalExit?_cases p.markers.main with
        ⟨-, unmentioned⟩ | ⟨exit, row, chosen, -, -⟩
      · exact absurd mentioned (unmentioned key plain)
      · exact .inr ⟨exit, chosen⟩

end Tableau

/-- A constraint that was forgiven, removed and cleared is projected away. -/
theorem Simplex.Priced.projected {s inner : Simplex Rat} (priced : s.Priced posed) (member : p ∈ posed)
    (weighed : p.markers.weight = none → p.constraint.priority = .required)
    (removed : (s.forgiven p).Removed p p.constraint.tag inner) :
    s.tableau.Projected p.columns (inner.cleared p).tableau := by
  obtain ⟨k, carries⟩ := priced.carries
  obtain ⟨carries', -, -, known⟩ := carries.withdrawn member removed
  refine ⟨fun d own => ?_, fun σ => ?_, carries.upright_withdrawn member removed⟩
  · have new : d ∉ (inner.cleared p).tableau.scope := fun inScope => by
      obtain ⟨notMain, notError⟩ := known d inScope
      rcases Markers.Fits.main_or_error (carries.family.fits p member) weighed own with main | error
      · exact notMain main
      · exact notError error
    exact ⟨not_basic_of_not_mem_scope new, not_indexed_of_not_mem_scope new,
      fun key mentioned => new (carries'.represents.toWellFormed.mem_scope_of_mentions mentioned)⟩
  · rw [carries'.represents.obeys_iff carries'.family, equations_withoutTag_iff carries.family member]
    refine exists_congr fun τ => and_congr_right fun _ => ?_
    exact (carries.represents.obeys_iff carries.family).symm

namespace Solver

variable {config : Config Rat} {s : Solver Rat} {c : Constraint Rat} {known : Installed Rat}

/-- Where constraints are taken back: between operations, and while the constraints of the innermost session
are taken back to close it. -/
inductive Visited (config : Config Rat) : Solver Rat → Prop where
  | between {agenda : List Entry} {s : Solver Rat}
      (operated : Operated config (fun _ _ => Operation.Named) agenda s) : Visited config s
  | closing {agenda : List Entry} {s s' : Solver Rat} {session : Session Rat}
      {outer : List (Session Rat)} {gone left : List (Constraint Rat)}
      (operated : Operated config (fun _ _ => Operation.Named) agenda s)
      (sessions : s.sessions = session :: outer) (listed : session.constraints = gone ++ left)
      (ran : (Step.forEach gone uninstall).run s.popped = (.ok (), s')) : Visited config s'

theorem Visited.tends (settings : config.Exact) (visited : Visited config s) :
    ∃ bound items, Tends config bound items s := by
  cases visited with
  | between operated =>
      obtain ⟨items, tends, -⟩ := operated.tends settings fun _ _ _ => id
      exact ⟨_, items, tends⟩
  | @closing agenda s₀ s session outer gone left operated sessions listed ran =>
      obtain ⟨items, tends, -⟩ := operated.tends settings fun _ _ _ => id
      obtain ⟨innermost, popped⟩ := tends.popped sessions
      -- What is gone was listed by the session, so that no session that is open still lists it.
      obtain ⟨items', tends', -⟩ := popped.leftAll settings (fun e inside own => by
        refine (tends.mem_tags_iff inside s₀.popped.depth).1 ?_
        rw [← innermost, listed, List.map_append]
        exact List.mem_append_left _ own) ran
      exact ⟨_, items', tends'⟩

/-- Any constraint that is installed can be withdrawn, between operations and while a session is closed. Its
main column is basic, or some row leaves for it, once its errors cost nothing any more. The tableau that is
left projects that in which the stays were reset along the columns of the constraint, its objective row
charges every column what the errors of the other constraints cost once they are rewritten, and it only
remains to optimise. -/
theorem Visited.withdraw_spec (settings : config.Exact) (visited : Visited config s)
    (found : s.installed.get? c.tag = some known) :
    ∃ s₀ s₁ registration, (forgive c).run s = (.ok known.markers, s₀) ∧
      s₀.simplex.registered.get? c.tag = some registration ∧
      (s₀.tableau.isBasic registration.marker = true ∨
        ∃ exit, Simplex.removalExit? s₀.tableau registration.marker = .ok (some exit)) ∧
      (withdraw c).run s = (.ok (), s₁) ∧
      (uninstall c).run s = (onSimplex Simplex.optimize).run s₁ ∧
      s.resetStays.tableau.Projected known.markers.columns s₁.tableau ∧
      s₁.installed = s.installed.erase c.tag ∧
      ∃ goal, s₁.tableau.rows.get? .objective = some goal ∧
        ∀ d, goal.coefficient d = s₁.dues fun error => s₁.tableau.rewritten error d := by
  obtain ⟨bound, items₀, tends₀⟩ := visited.tends settings
  obtain ⟨amount, tends, -⟩ := tends₀.resetStays
  obtain ⟨i, inside, tag, rfl⟩ := tends.exists_of_installed found
  have poses := tends.toPoses
  have member := mem_posedOf inside
  obtain ⟨inner, removed, forgiven, ran⟩ := poses.run_withdraw member tag
  obtain ⟨k, carries⟩ := poses.priced.carries
  have left := (poses.priced.withdrawn member removed).1
  have weighed : i.markers.weight = none → i.constraint.priority = .required := by
    rw [tends.weights i inside, settings.weight_eq_none_iff]
    exact id
  refine ⟨_, _, ⟨i.constraint, i.markers.main⟩, forgiven, tag ▸ poses.priced.registered_of_mem member,
    (carries.forgiven member).represents.basic_or_exit carries.family member, ran, ?_,
    poses.priced.projected member weighed removed, rfl, ?_⟩
  · rw [uninstall_eq, Step.run_bind_of_ok ran]
  · exact (tag ▸ poses.withErased left).charges

/-- An unknown had better be at least five. -/
def atLeastFive : Constraint Rat where
  tag := .given 1
  left := .variable ⟨"x", 0⟩
  comparator := .ge
  right := .constant 5
  priority := .high

/-- The solver that keeps an unknown below two, which had better be at least five. -/
def wistful : Solver Rat :=
  ((Step.forEach [.command (.add atMostTwo), .command (.add atLeastFive)] Operation.step).run
    (create exactSettings)).2

/-- When the wish is withdrawn its slack enters for its error, which leaves all rows with it. -/
theorem withdraw_spec_wistful :
    let slack : Column := .symbol ⟨.slack, "s2", 3⟩
    let error : Column := .symbol ⟨.slack, "e1", 4⟩
    ∃ known s₀ s₁, Visited exactSettings wistful ∧
      wistful.installed.get? atLeastFive.tag = some known ∧ known.markers.columns = [slack, error] ∧
      wistful.tableau.isBasic error = true ∧
      (forgive atLeastFive).run wistful = (.ok known.markers, s₀) ∧
      (Simplex.removalExit? s₀.tableau slack).toOption = some (some error) ∧
      (withdraw atLeastFive).run wistful = (.ok (), s₁) ∧
      wistful.resetStays.tableau.Projected [slack, error] s₁.tableau := by
  intro slack error
  obtain ⟨_, ran⟩ := Step.run_of_isOk (show ((Step.forEach [.command (.add atMostTwo),
    .command (.add atLeastFive)] Operation.step).run (create exactSettings)).1.isOk = true by
      decide +kernel)
  obtain ⟨agenda, operated⟩ : ∃ agenda,
      Operated exactSettings (fun _ _ => Operation.Named) agenda wistful :=
    Operated.created.forEach (by simp [Operation.Named, atMostTwo, atLeastFive]) ran
  have columns : (wistful.installed.get? atLeastFive.tag).map (·.markers.columns) =
      some [slack, error] := by decide +kernel
  obtain ⟨known, found, own⟩ := Option.map_eq_some_iff.1 columns
  obtain ⟨s₀, s₁, registration, forgiven, -, -, withdrawn, -, projected, -⟩ :=
    Visited.withdraw_spec exact_exactSettings (.between operated) found
  refine ⟨known, s₀, s₁, .between operated, found, own, by decide +kernel, forgiven, ?_, withdrawn,
    own ▸ projected⟩
  have left : ((forgive atLeastFive).run wistful).2 = s₀ := by rw [forgiven]
  rw [← left]
  decide +kernel

end Solver

end SoftSimplex
