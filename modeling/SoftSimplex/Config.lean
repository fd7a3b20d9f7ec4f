import SoftSimplex.Scalar
import SoftSimplex.Literal

/-!
What a solver is set up with.
-/

namespace SoftSimplex

/-- The settings of a solver. -/
structure Config (K : Type) where
  /-- Numbers this close to zero count as zero. There may be a setting that is no number; then nothing
  can be compared with it. -/
  tolerance : Option K
  /-- Optional strengths above this are lowered to it. It is found out only then whether the value can
  be a strength. -/
  maxStrength : Literal := .integer 1500
  /-- How strongly a variable stays when nothing else is said. -/
  stayPriority : Priority := .low
  /-- How strongly a suggested value is wanted when nothing else is said. -/
  editPriority : Priority := .high
  /-- What falling short of a strength costs. -/
  weights : Weights K
  /-- Whether what happens is written into a log. -/
  logged : Bool := false

/-- The settings for doubles. The limit on strengths keeps the largest weight, 1e15, within the
precision of the weight one. -/
def Config.standard : Config Float := { tolerance := some 1e-8, weights := .tiers }

end SoftSimplex
