import SoftSimplex.Scalar
import SoftSimplex.Column

/-!
Linear expressions over variables, as the trees they are written as.

An expression has a value under an assignment (`eval`); it is turned into a row once, when a
constraint is posed, and is otherwise only shown.
-/

namespace SoftSimplex

/-- A linear expression. -/
inductive LinExpr (K : Type) where
  | variable (v : Variable)
  | constant (value : K)
  | add (left right : LinExpr K)
  | scale (factor : K) (body : LinExpr K)
  deriving Repr

namespace LinExpr

variable {K : Type} [Scalar K]

/-- The value of an expression when each variable takes its value from the assignment. -/
def eval (assignment : Variable → K) : LinExpr K → K
  | .variable v => assignment v
  | .constant value => value
  | .add left right => left.eval assignment + right.eval assignment
  | .scale factor body => factor * body.eval assignment

/-- The number of nodes of an expression. -/
def size : LinExpr K → Nat
  | .variable _ => 1
  | .constant _ => 1
  | .add left right => left.size + right.size + 1
  | .scale _ body => body.size + 1

/-- Minus an expression. -/
def neg (e : LinExpr K) : LinExpr K := .scale (-1) e

/-- A difference is the sum with the negated right side. -/
def sub (left right : LinExpr K) : LinExpr K := .add left right.neg

instance : Add (LinExpr K) := ⟨.add⟩
instance : Sub (LinExpr K) := ⟨sub⟩
instance : Neg (LinExpr K) := ⟨neg⟩
instance : Coe Variable (LinExpr K) := ⟨.variable⟩

end LinExpr

end SoftSimplex
