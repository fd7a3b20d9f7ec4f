/-!
How strongly a constraint is wanted.

A required constraint must hold. An optional one has a strength, and falling short of it costs a
weight that grows with the strength; the weights themselves belong to the settings of a solver
(`Weights`). The named priorities are `low`, `medium` and `high`, three orders of magnitude of
weight apart.
-/

namespace SoftSimplex

/-- How strongly a constraint is wanted. -/
inductive Priority where
  | required
  | optional (strength : Nat)
  deriving DecidableEq, Repr

namespace Priority

/-- The optional priority of weight one. -/
def low : Priority := .optional 250

/-- The optional priority of weight one thousand. -/
def medium : Priority := .optional 500

/-- The optional priority of weight one million. -/
def high : Priority := .optional 750

/-- The priority of a strength; every negative strength is required. -/
def ofStrength : Int → Priority
  | .ofNat n => .optional n
  | .negSucc _ => .required

/-- The strength of a priority; required counts as minus one. -/
def strength : Priority → Int
  | .required => -1
  | .optional n => n

/-- Whether a constraint of this priority must hold. -/
def isRequired : Priority → Bool
  | .required => true
  | .optional _ => false

/-- Strengths add up; required absorbs. -/
def add : Priority → Priority → Priority
  | .optional a, .optional b => .optional (a + b)
  | _, _ => .required

/-- Strengths subtract and stop at zero; required absorbs. -/
def sub : Priority → Priority → Priority
  | .optional a, .optional b => .optional (a - b)
  | _, _ => .required

/-- The names that priorities are written by. -/
def named : List (String × Priority) :=
  [("required", required), ("high", high), ("medium", medium), ("low", low)]

/-- The text of a priority: its name, or its strength. -/
def text (priority : Priority) : String :=
  match named.find? fun entry => entry.2 = priority with
  | some (name, _) => name
  | none => s!"optional({priority.strength})"

theorem ofStrength_strength (priority : Priority) : ofStrength priority.strength = priority := by
  cases priority <;> rfl

end Priority

/-- What falling short of a constraint by one costs, by its strength. Nothing is known of a strength
whose weight is too large for the numbers in use. -/
abbrev Weights (K : Type) := Nat → Option K

/-- Weights of doubles: ten to the power of three times (strength / 250 - 1). The strength is divided
with correct rounding before anything else happens to it. A quotient or a power too large for a
double is no weight, but an infinite exponent has an infinite one. -/
def Weights.tiers : Weights Float := fun strength =>
  let infinity : Float := 1.0 / 0.0
  let quotient := Float.ofScientific (4 * strength) true 3
  let exponent := 3.0 * (quotient - 1.0)
  let weight := Float.pow 10.0 exponent
  if quotient < infinity && (weight < infinity || infinity ≤ exponent) then some weight else none

end SoftSimplex
