import SoftSimplex.LinExpr
import SoftSimplex.Priority

/-!
Constraints: two linear expressions, how they compare, and how strongly that is wanted.

A constraint is known by its tag. Two constraints that say the same under different tags are two
requests, and taking one back leaves the other. Callers number theirs with `given`; the ones that a
solver poses on its own account are `made`.
-/

namespace SoftSimplex

open Std

/-- How the two sides of a constraint compare. -/
inductive Comparator where
  | eq
  | le
  | ge
  deriving DecidableEq, Repr

namespace Comparator

/-- The comparator with the two sides exchanged. -/
def inverted : Comparator → Comparator
  | .eq => .eq
  | .le => .ge
  | .ge => .le

/-- How a comparator is written. -/
def text : Comparator → String
  | .eq => "=="
  | .le => "<="
  | .ge => ">="

end Comparator

/-- What a constraint is known by. -/
inductive Tag where
  | given (number : Nat)
  | made (number : Nat)
  deriving DecidableEq, Repr

namespace Tag

/-- Tags of callers come before tags of the solver. -/
def rank : Tag → Nat
  | .given _ => 0
  | .made _ => 1

/-- The number of a tag. -/
def number : Tag → Nat
  | .given n => n
  | .made n => n

instance : Ord Tag := ⟨compareLex (compareOn rank) (compareOn number)⟩

instance : TransOrd Tag :=
  inferInstanceAs (TransCmp (compareLex (compareOn rank) (compareOn number)))

theorem compare_eq_then (a b : Tag) :
    compare a b = (compare a.rank b.rank).then (compare a.number b.number) := rfl

instance : LawfulEqOrd Tag where
  eq_of_compare {a b} h := by
    rw [compare_eq_then] at h
    simp only [Ordering.then_eq_eq, LawfulEqOrd.compare_eq_iff_eq] at h
    cases a <;> cases b <;> simp_all [rank, number]

end Tag

/-- A relation between two linear expressions that is wanted with a priority. -/
structure Constraint (K : Type) where
  tag : Tag
  left : LinExpr K
  comparator : Comparator
  right : LinExpr K
  priority : Priority := .required
  deriving Repr

namespace Constraint

variable {K : Type} [Scalar K]

/-- How far the left side lies above the right side. -/
def residual (c : Constraint K) (assignment : Variable → K) : K :=
  c.left.eval assignment - c.right.eval assignment

/-- Whether the relation holds up to a tolerance. -/
def isSatisfied (c : Constraint K) (assignment : Variable → K) (tolerance : K) : Bool :=
  let r := c.residual assignment
  match c.comparator with
  | .eq => Scalar.nearZero tolerance r
  | .le => r ≤ tolerance
  | .ge => -tolerance ≤ r

/-- The same relation, under another tag, wanted with another priority. -/
def withPriority (c : Constraint K) (tag : Tag) (priority : Priority) : Constraint K :=
  { c with tag, priority }

end Constraint

end SoftSimplex
