import SoftSimplex.Scalar
import SoftSimplex.Column

/-!
Solutions: the value of an objective and the values of the variables.
-/

namespace SoftSimplex

/-- Values of variables, in the order that they were read in. -/
abbrev Values (K : Type) := List (Variable × K)

namespace Values

variable {K : Type} [Scalar K]

/-- The value of a variable; one without a value reads as zero. -/
def value (values : Values K) (v : Variable) : K :=
  ((values.find? fun entry => entry.1 = v).map (·.2)).getD 0

/-- Whether a variable has a value. -/
def has (values : Values K) (v : Variable) : Bool := values.any fun entry => entry.1 = v

/-- Give a variable a value: in its old place if it had one, and at the end if not. -/
def put (values : Values K) (v : Variable) (value : K) : Values K :=
  if values.has v then values.map fun entry => if entry.1 = v then (v, value) else entry
  else values ++ [(v, value)]

/-- Whether two lists give values to the same variables. -/
def sameVariables (a b : Values K) : Bool :=
  a.all (fun entry => b.has entry.1) && b.all (fun entry => a.has entry.1)

end Values

/-- The optimal value of an objective and an assignment that attains it. -/
structure Solution (K : Type) where
  objective : K
  values : Values K
  /-- How far two solutions may be apart and still count as close. -/
  tolerance : Option K

end SoftSimplex
