import SoftSimplex.Step

/-!
Reports of whole tableaus.

A tableau that is logged is written down when it is reported, which fails for numbers that cannot be.
-/

namespace SoftSimplex.Tableau

variable {K : Type} [Scalar K]

/-- Whether every number in the rows can be written down. -/
def isWritable (t : Tableau K) : Bool :=
  t.rows.toList.all fun entry => entry.2.all Scalar.isWritable

/-- Report the tableau as it is. -/
def snapshot (milestone : Milestone) : Step K (Tableau K) Unit := do
  let t ← Step.get
  Step.ensure .overflow (!t.logged || t.isWritable)
  Step.report (.snapshot milestone t)

@[simp] theorem isWritable_rat (t : Tableau Rat) : t.isWritable = true := by
  simp [isWritable, Row.all]

end SoftSimplex.Tableau
