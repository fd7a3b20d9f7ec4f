import SoftSimplex.Proofs.Simplex.Operating
import SoftSimplex.Proofs.Solver.Operating
import SoftSimplex.Proofs.Tableau.Inversion

/-!
Rows that unknowns of the caller and dummies stay out of.

Ratio tests look at pivotable rows only, and only pivotable columns enter. That is sound because no
restricted row ever mentions an unknown of the caller, and because dummies move with dummies only, as long
as no required equation is taken back (`Secluded`). Both hold of solvers of either sort after any
operations, answered or failed (`sheltering_spec`).
-/

namespace SoftSimplex

namespace Tableau

variable {t : Tableau Rat} {e : Rat} {restraint : Restraint} {pairs : Column → Column → Prop}
  {objective : Column} {bill : Row Rat} {v : Variable}

/-- No restricted row mentions an unknown of the caller, so that no ratio test bounds one, and dummies are
set apart as far as the tolerance and the restraint go. -/
structure Secluded (e : Rat) (restraint : Restraint) (t : Tableau Rat) : Prop where
  sheltered : t.Sheltered
  unbounded : ∀ v, t.leaving? (.external v) = .ok none
  insulated : restraint ≠ .free → t.Insulated
  anchored : restraint = .still → e = 0 → t.Anchored

/-- An unknown that no restricted row mentions is not bounded. -/
theorem Sheltered.leaving?_external (sheltered : t.Sheltered) (wf : t.WellFormed) (v : Variable) :
    t.leaving? (.external v) = .ok none := by
  rcases wf.leaving?_cases (.external v) with ⟨leaving, -⟩ | ⟨exit, row, -, bounds⟩
  · exact leaving
  · have mentioned : t.Mentions exit (.external v) :=
      mentions_of_coefficient bounds.found bounds.negative.ne
    cases sheltered exit _ (Column.restricted_of_pivotable bounds.pivotable) mentioned

theorem Orderly.secluded (orderly : t.Orderly restraint pairs) (wf : t.WellFormed)
    (exact : e = 0 → t.tolerance = some 0) : t.Secluded e restraint where
  sheltered := orderly.sheltered
  unbounded := orderly.sheltered.leaving?_external wf
  insulated := orderly.insulated
  anchored still zero := by
    refine ⟨orderly.insulated_of_still still, fun key row dummy found => ?_⟩
    rw [← basicSolution_of_basic found]
    exact orderly.grounded still (exact zero) key dummy

/-- An objective that charges for restricted columns only mentions no unknown of the caller: none of these
columns moves with it. -/
theorem Billed.not_mentions_external (billed : t.Billed objective bill) (wf : t.WellFormed)
    (sheltered : t.Sheltered) (restricted : ∀ c, bill.coefficient c ≠ 0 → c.isRestricted = true) :
    ¬t.Mentions objective (.external v) := by
  intro mentioned
  obtain ⟨goal, found, present⟩ := mentions_iff.1 mentioned
  have still : bill.eval (t.ray (.external v) 0) = bill.eval (t.ray (.external v) 1) := by
    refine Row.eval_congr fun c charged => ?_
    have unmentioned : ¬t.Mentions c (.external v) := fun touched => by
      cases sheltered c _ (restricted c charged) touched
    have different : c ≠ .external v := by
      rintro rfl
      cases restricted _ charged
    rw [ray_of_unmentioned unmentioned different, ray_of_unmentioned unmentioned different]
  rw [← billed _ (wf.holds_ray _ 0), ← billed _ (wf.holds_ray _ 1), ray_of_basic found,
    ray_of_basic found] at still
  exact wf.coefficient_ne_zero found present (by linarith)

end Tableau

/-- Whatever is done to a solver of either sort, for every tolerance and whether it answers or fails, no row
of a slack, a dummy or an artificial column mentions an unknown of the caller, and no ratio test bounds one;
without tolerance the objective of a solver for optional constraints mentions none either. As long as no
required equation is taken back, the rows of dummies mention dummies only; and without tolerance their
constants are zero, if moreover no value is suggested for a required edit. -/
theorem sheltering_spec (e : Rat) (nonneg : 0 ≤ e) :
    (∀ (config : Config Rat) (restraint : Restraint) (s : Solver Rat), config.tolerance = some e →
      (Solver.create config).Performs restraint s → s.tableau.Secluded e restraint ∧
        (e = 0 → (∀ strength w, config.weights strength = some w → 0 ≤ w) →
          ∀ v, ¬s.tableau.Mentions .objective (.external v))) ∧
    ∀ (problem : Problem Rat) (logged : Bool) (restraint : Restraint) (s : Simplex Rat),
      (Simplex.ofProblem (some e) problem logged).state.Performs restraint s →
        s.tableau.Secluded e restraint ∧ (restraint ≠ .free → e = 0 → s.tableau.Anchored) := by
  refine ⟨fun config restraint s tolerance performs => ?_, fun problem logged restraint s performs => ?_⟩
  · have created : (Solver.create config).Coherent False restraint :=
      Solver.coherent_create tolerance nonneg False.elim
    obtain ⟨coherent, recalls⟩ := performs.minds created
    have wf := coherent.sound.toWellFormed
    refine ⟨coherent.orderly.secluded wf fun zero => ?_, fun zero weights v => ?_⟩
    · exact zero ▸ recalls.tolerance.trans (Solver.tolerance_create tolerance nonneg)
    · have charging : (Solver.create config).Coherent True restraint :=
        Solver.coherent_create tolerance nonneg fun _ => ⟨zero, weights⟩
      obtain ⟨charged, -⟩ := performs.minds charging
      obtain ⟨bill, billed, pivotable, -⟩ := (charged.solvent trivial).accounts
      exact billed.not_mentions_external wf coherent.orderly.sheltered fun c nonzero =>
        Column.restricted_of_pivotable (pivotable c nonzero).1
  · have secluded {restraint : Restraint}
        (performs : (Simplex.ofProblem (some e) problem logged).state.Performs restraint s) :
        s.tableau.Secluded e restraint := by
      obtain ⟨consistent, remembers⟩ := performs.evolves
        (Simplex.consistent_install nonneg problem logged)
      have tolerance := remembers.tolerance.trans (Simplex.tolerance_install nonneg problem logged)
      exact consistent.orderly.secluded consistent.sound.toWellFormed fun zero => zero ▸ tolerance
    exact ⟨secluded performs, fun restrained =>
      (secluded (performs.still restrained)).anchored rfl⟩

/-- So many times an unknown is to exceed as many times another one by an amount. -/
def exceeds (tag : Nat) (times amount : Rat) : Constraint Rat where
  tag := .given tag
  left := .scale times (.variable ⟨"x", 0⟩)
  comparator := .eq
  right := .add (.scale times (.variable ⟨"y", 1⟩)) (.constant amount)

namespace Solver

/-- The solver that was told twice to keep two unknowns equal, and that refused to keep them apart. -/
def insistent : Solver Rat := (create exactSettings).performed
  [.command (.add (exceeds 0 1 0)), .command (.add (exceeds 1 2 0)), .command (.add (exceeds 2 1 1))]

/-- That solver after one of the unknowns was moved. -/
def displaced : Solver Rat := insistent.performed
  [.command (.beginEdit [.edit ⟨"x", 0⟩ none]), .command (.suggest [(⟨"x", 0⟩, 3)])]

end Solver

/-- The minimum of two unknowns that are kept equal twice over. -/
def repetitive : Problem Rat where
  objective := ⟨.minimize, .variable ⟨"x", 0⟩⟩
  constraints := [exceeds 0 1 0, exceeds 1 2 0]
  nonnegative := true

/-- One of the dummies of the equations is basic and depends on the other one, which moves neither it nor a
bounded column, also once an unknown was moved or the minimum was sought. -/
theorem sheltering_spec_redundant :
    let first : Column := .symbol ⟨.dummy, "d1", 2⟩
    let second : Column := .symbol ⟨.dummy, "d2", 3⟩
    let solved := (Simplex.Command.solve.step.run (Simplex.ofProblem (some 0) repetitive).state).2
    ((Solver.add (exceeds 2 1 1)).run Solver.insistent).1.isOk = false ∧
    Solver.displaced.tableau.Mentions first second ∧ Solver.displaced.tableau.Secluded 0 .still ∧
    (∀ v, ¬Solver.displaced.tableau.Mentions .objective (.external v)) ∧
    solved.tableau.Mentions first second ∧ solved.tableau.Secluded 0 .keeping ∧
    solved.tableau.Anchored := by
  intro first second solved
  obtain ⟨refused, related, programmed⟩ :
      ((Solver.add (exceeds 2 1 1)).run Solver.insistent).1.isOk = false ∧
      Solver.displaced.tableau.Mentions first second ∧ solved.tableau.Mentions first second := by
    decide +kernel
  have weights : ∀ strength w, Solver.exactSettings.weights strength = some w → 0 ≤ w := by
    rintro strength w ⟨⟩
    exact (Nat.cast_add_one_pos strength).le
  have insisted : (Solver.create Solver.exactSettings).Performs .still Solver.insistent :=
    ((Relation.ReflTransGen.single
      ⟨.command (.add (exceeds 0 1 0)), ⟨fun _ => by decide +kernel, nofun⟩, rfl⟩).tail
      ⟨.command (.add (exceeds 1 2 0)), ⟨fun _ => by decide +kernel, nofun⟩, rfl⟩).tail
      ⟨.command (.add (exceeds 2 1 1)), ⟨fun _ => by decide +kernel, nofun⟩, rfl⟩
  have moved : (Solver.create Solver.exactSettings).Performs .still Solver.displaced :=
    (insisted.tail ⟨.command (.beginEdit [.edit ⟨"x", 0⟩ none]),
      ⟨fun _ => by decide +kernel, nofun⟩, rfl⟩).tail
      ⟨.command (.suggest [(⟨"x", 0⟩, 3)]),
        ⟨fun _ => by decide +kernel, fun _ => by decide +kernel⟩, rfl⟩
  have sought : (Simplex.ofProblem (some 0) repetitive).state.Performs .keeping solved :=
    .single ⟨.command .solve, fun _ => by decide +kernel, rfl⟩
  obtain ⟨solvers, programs⟩ := sheltering_spec 0 le_rfl
  obtain ⟨secluded, idle⟩ := solvers Solver.exactSettings .still Solver.displaced rfl moved
  obtain ⟨kept, anchored⟩ := programs repetitive false .keeping solved sought
  exact ⟨refused, related, secluded, idle rfl weights, programmed, kept, anchored nofun rfl⟩

end SoftSimplex
