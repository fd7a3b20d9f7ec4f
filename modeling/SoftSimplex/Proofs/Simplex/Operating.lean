import Mathlib.Logic.Relation
import SoftSimplex.Proofs.Simplex.Consistency

/-!
What callers do to a simplex solver.

Besides giving commands, callers optimise and repair for any row, have symbols made, and put rows in
themselves (`Operation`). Whatever they do, answered or failed, leaves a consistent solver
(`Performs.evolves`).
-/

namespace SoftSimplex.Simplex

open Tableau

variable {s s' : Simplex Rat} {restraint : Restraint}

/-- What callers do. -/
inductive Operation where
  | command (given : Command)
  | optimize (objective : Column)
  | repair (objective : Column)
  | makeSlack
  | makeDummy
  | makeArtificial
  | makeError (label : String)
  /-- A row is put in that is in terms of columns outside the basis. -/
  | insertRow (row : Row Rat) (candidates : List Column)

namespace Operation

def step : Operation → Step Rat (Simplex Rat) Unit
  | command given => given.step
  | optimize objective => Simplex.optimize objective
  | repair objective => Simplex.repair objective
  | makeSlack => do
    let _ ← freshSlack
  | makeDummy => do
    let _ ← freshDummy
  | makeArtificial => do
    let _ ← freshArtificial
  | makeError label => do
    let _ ← freshSymbol .slack label
  | insertRow row candidates => Simplex.insertRow row candidates

/-- An operation takes no required equation back, if that is refrained from. A row that is put in is in
terms of columns that were made, and outside the basis. -/
def Heeds (restraint : Restraint) (s : Simplex Rat) : Operation → Prop
  | command given => given.Heeds restraint s
  | insertRow row _ =>
      s.tableau.Parametric row ∧ ∀ c, row.terms.contains c = true → c.Below s.nextSerial
  | _ => True

theorem evolves (operation : Operation) (s : Simplex Rat) (heeds : operation.Heeds restraint s) :
    s.Evolves restraint (operation.step.run s).2 := by
  cases operation with
  | command given => exact given.evolves s heeds
  | optimize objective =>
      exact fun consistent =>
        (leads_optimize consistent.sound objective).reaches.evolves consistent
  | repair objective =>
      exact fun consistent => (leads_repair consistent.sound objective).reaches.evolves consistent
  | makeSlack | makeDummy | makeArtificial | makeError _ =>
      exact Keeps.evolves ⟨rfl, rfl, rfl, Nat.le_succ _⟩ rfl
  | insertRow row candidates =>
      intro consistent
      have addable : s.Addable row := ⟨consistent.sound, consistent.idle, consistent.fresh,
        consistent.numbered, heeds.1, heeds.2⟩
      exact (addable.leads_insertRow candidates).reaches.evolves consistent

end Operation

/-- Any number of operations under a restraint, answered or failed. -/
abbrev Performs (restraint : Restraint) : Simplex Rat → Simplex Rat → Prop :=
  Relation.ReflTransGen fun s s' =>
    ∃ operation : Operation, operation.Heeds restraint s ∧ (operation.step.run s).2 = s'

/-- Nothing is suggested to a simplex solver, so that its dummies stay once no equation is taken back. -/
theorem Performs.still (performs : s.Performs restraint s') (restrained : restraint ≠ .free) :
    s.Performs .still s' := by
  refine Relation.ReflTransGen.mono (fun s₁ s₂ => ?_) _ _ performs
  rintro ⟨operation, heeds, reached⟩
  refine ⟨operation, ?_, reached⟩
  cases operation with
  | command given => exact fun _ => heeds restrained
  | insertRow row candidates => exact heeds
  | optimize _ | repair _ | makeSlack | makeDummy | makeArtificial | makeError _ => trivial

theorem Performs.evolves (performs : s.Performs restraint s') : s.Evolves restraint s' := by
  induction performs with
  | refl => exact refl_of _ s
  | tail _ performed ih =>
      obtain ⟨operation, heeds, rfl⟩ := performed
      exact trans_of _ ih (operation.evolves _ heeds)

end SoftSimplex.Simplex
