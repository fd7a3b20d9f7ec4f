import SoftSimplex.Problem
import SoftSimplex.Grid

/-!
Linear programs given by arrays: minimise or maximise `c · x` subject to `A · x ≤ b`, to
`A' · x = b'`, and to `x ≥ 0`.
-/

namespace SoftSimplex

variable {K : Type} [Scalar K]

/-- A coefficient times a variable, or nothing if the coefficient is zero. A coefficient of one is
left out. -/
def LinExpr.term? (coefficient : K) (v : Variable) : Option (LinExpr K) :=
  if Scalar.isZero coefficient then none
  else if coefficient ≤ 1 && 1 ≤ coefficient then some (.variable v)
  else some (.scale coefficient (.variable v))

/-- The sum of coefficients times variables. -/
def LinExpr.combination (coefficients : List K) (unknowns : List Variable) : LinExpr K :=
  match (coefficients.zip unknowns).filterMap fun (a, v) => LinExpr.term? a v with
  | [] => .constant 0
  | first :: rest => rest.foldl .add first

/-- The arrays of a linear program. Each may have failed to be read as one; of two failures the one
that is met first counts. -/
structure Arrays (K : Type) where
  goal : Goal
  costs : Except ArrayFault (Grid K)
  upperMatrix : Option (Except ArrayFault (Grid K)) := none
  upperBounds : Option (Except ArrayFault (Grid K)) := none
  equalMatrix : Option (Except ArrayFault (Grid K)) := none
  equalBounds : Option (Except ArrayFault (Grid K)) := none
  names : Option (List String) := none

/-- The sides of the constraints of a matrix and its bounds, without their tags. -/
def Grid.relations (matrix bounds : Grid K) (unknowns : List Variable) :
    Except ArrayFault (List (LinExpr K × LinExpr K)) :=
  let rowCount := bounds.entries.length
  let columnCount := unknowns.length
  if matrix.matrixShape = [rowCount, columnCount] then
    .ok (((matrix.rows rowCount columnCount).zip bounds.entries).map fun (row, bound) =>
      (.combination row unknowns, .constant bound))
  else .error (.matrixShape matrix.matrixShape rowCount columnCount)

/-- The name that a value stands for; whatever counts as false is no name. -/
def Literal.name (value : Literal) : Except ArrayFault String :=
  match value with
  | .text name => .ok name
  | value => if value.isTruthy then .error .notNames else .ok ""

/-- The names that a value holds: items of a list, characters of a text, or names of fields. -/
def Literal.names : Literal → Except ArrayFault (List String)
  | .list items => items.mapM Literal.name
  | .text names => .ok (names.toList.map Char.toString)
  | .record fields => .ok (fields.map (·.1))
  | _ => .error .notNames

namespace Arrays

/-- The variables of a program: named as asked for, or `x1`, `x2` and so on. -/
def unknowns (count : Nat) (names : Option (List String)) : Except ArrayFault (List Variable) :=
  let names := names.getD ((List.range count).map fun j => s!"x{j + 1}")
  if names.length = count then .ok (names.zipIdx.map fun (name, j) => ⟨name, j⟩)
  else .error (.nameCount count names.length)

/-- The sides of the constraints of one kind. -/
def relations (matrix bounds : Option (Except ArrayFault (Grid K))) (unknowns : List Variable) :
    Except ArrayFault (List (LinExpr K × LinExpr K)) :=
  match matrix, bounds with
  | none, none => .ok []
  | some matrix, some bounds => do
    let matrix ← matrix
    let bounds ← bounds
    matrix.relations bounds unknowns
  | _, _ => .error .notTogether

/-- The linear program of arrays, and its variables in the order of the columns. -/
def problem (arrays : Arrays K) : Except ArrayFault (Problem K × List Variable) := do
  let costs := (← arrays.costs).entries
  let unknowns ← unknowns costs.length arrays.names
  let upper ← relations arrays.upperMatrix arrays.upperBounds unknowns
  let equal ← relations arrays.equalMatrix arrays.equalBounds unknowns
  let related := upper.map (Comparator.le, ·) ++ equal.map (Comparator.eq, ·)
  let constraints := related.zipIdx.map fun ((comparator, left, right), n) =>
    ({ tag := .given n, left, comparator, right } : Constraint K)
  let objective := ⟨arrays.goal, .combination costs unknowns⟩
  return ({ objective, constraints, nonnegative := true }, unknowns)

end Arrays

/-- What is said when arrays make no linear program. -/
def ArrayFault.message? : ArrayFault → Option String
  | .nameCount expected given => some s!"Expected {expected} variable names, got {given}"
  | .notTogether => some "Constraint matrices and bounds must be given together"
  | .matrixShape found rows columns =>
    let extents := ", ".intercalate (found.map toString)
    some s!"Constraint matrix has shape ({extents}), expected ({rows}, {columns})"
  | .ragged => none
  | .tooDeep => none
  | .unreadable => none
  | .notNumeric => none
  | .notNames => none
  | .overflow => none

end SoftSimplex
