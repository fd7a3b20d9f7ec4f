import SoftSimplex.Sorted.Map
import SoftSimplex.Constraint

/-!
Sparse linear rows: coefficients of columns, and a constant.

In a tableau the row stored under a column `b` reads `b = constant + Σ coefficient · column`. A row
made from a constraint is a residual that is to be zero, or not negative once a slack column is
subtracted; `ofConstraint` turns `≤` around so that one reading serves both inequalities. A
coefficient of zero may be stored: rows are cleaned only where `purge` is called.
-/

namespace SoftSimplex

/-- A linear form over columns. -/
structure Row (K : Type) where
  terms : Sorted.Map Column K
  constant : K

namespace Row

variable {K : Type} [Scalar K]

/-- The row without terms. -/
def ofConstant (value : K) : Row K := ⟨∅, value⟩

/-- The row of a list of terms; of two terms of one column the later counts. -/
def ofTerms (terms : List (Column × K)) (constant : K) : Row K := ⟨.ofList terms, constant⟩

/-- The row with other numbers. -/
def map {L : Type} (change : K → L) (row : Row K) : Row L :=
  ⟨row.terms.map change, change row.constant⟩

/-- Whether a test holds of the constant and of every coefficient. -/
def all (test : K → Bool) (row : Row K) : Bool :=
  test row.constant && row.terms.toList.all fun term => test term.2

/-- Whether the constant and every coefficient is a number. -/
def isNumeric (row : Row K) : Bool := row.all Scalar.isNumber

@[simp] theorem isNumeric_rat (row : Row Rat) : row.isNumeric = true := by
  simp [isNumeric, all]

/-- The coefficient of a column, zero if it has no term. -/
def coefficient (row : Row K) (column : Column) : K :=
  (row.terms.get? column).getD 0

/-- The value of a row when each column takes its value from the assignment. -/
def eval (row : Row K) (assignment : Column → K) : K :=
  row.terms.foldl (fun sum column coefficient => sum + coefficient * assignment column) row.constant

/-- Add to the coefficient of a column. The term is stored even if it comes out as zero. -/
def addTerm (row : Row K) (column : Column) (coefficient : K) : Row K :=
  { row with terms := row.terms.insert column (row.coefficient column + coefficient) }

/-- Add to the constant. -/
def addConstant (row : Row K) (value : K) : Row K :=
  { row with constant := row.constant + value }

/-- Drop the terms whose coefficient cannot be told from zero. -/
def purge (tolerance : K) (row : Row K) : Row K :=
  { row with terms := row.terms.filter fun _ coefficient => !Scalar.nearZero tolerance coefficient }

/-- Multiply every coefficient and the constant. -/
def scale (factor : K) (row : Row K) : Row K :=
  ⟨row.terms.map (· * factor), row.constant * factor⟩

/-- Sum of two rows. -/
def add (a b : Row K) : Row K :=
  (b.terms.foldl (fun row column coefficient => row.addTerm column coefficient) a).addConstant
    b.constant

instance : Add (Row K) := ⟨add⟩
instance : Neg (Row K) := ⟨scale (-1)⟩
instance : Sub (Row K) := ⟨fun a b => a + -b⟩

/-! ### Rows of expressions -/

/-- The size of the expressions that wait. -/
def backlog : List (K × LinExpr K) → Nat
  | [] => 0
  | waiting :: pending => waiting.2.size + backlog pending

/-- Add multiples of expressions to a row. The expressions wait on a stack; a sum is put back as its
two operands, the right one on top, and a product as its body with the factors multiplied. -/
def accumulate : List (K × LinExpr K) → Row K → Row K
  | [], row => row
  | (factor, .variable v) :: pending, row => accumulate pending (row.addTerm v factor)
  | (factor, .constant value) :: pending, row =>
      accumulate pending (row.addConstant (factor * value))
  | (factor, .add left right) :: pending, row =>
      accumulate ((factor, right) :: (factor, left) :: pending) row
  | (factor, .scale inner body) :: pending, row =>
      accumulate ((factor * inner, body) :: pending) row
termination_by pending => backlog pending
decreasing_by all_goals simp only [backlog, LinExpr.size]; omega

/-- The row of a multiple of an expression. -/
def ofExpr (factor tolerance : K) (e : LinExpr K) : Row K :=
  (accumulate [(factor, e)] (ofConstant 0)).purge tolerance

/-- The sign that makes every inequality read "not negative". -/
def residualSign : Comparator → K
  | .le => -1
  | .eq => 1
  | .ge => 1

/-- The row of a constraint's residual, negated for `≤`, with every term that is mentioned. -/
def residual (c : Constraint K) : Row K :=
  let sign := residualSign c.comparator
  accumulate [(-sign, c.right), (sign, c.left)] (ofConstant 0)

/-- The row of a constraint's residual, negated for `≤`. -/
def ofConstraint (tolerance : K) (c : Constraint K) : Row K := (residual c).purge tolerance

/-! ### Columns that can become basic at once -/

/-- The first external column of a row. -/
def firstExternal? (row : Row K) : Option Column :=
  row.terms.keys.find? Column.isExternal

/-- A column that can become basic without any pivoting: an external one, or else a slack candidate
with a negative coefficient. -/
def basicColumn? (row : Row K) (candidates : List Column) : Option Column :=
  row.firstExternal? <|> candidates.find? fun c => c.isSlack && row.coefficient c < 0

end Row

end SoftSimplex
