import SoftSimplex.Literal
import SoftSimplex.Decimal.Reading

/-!
Numbers in nested lists, laid out as arrays.

A grid has an extent for every level of nesting, which must be the same everywhere on the level, and
holds its numbers one after another. It can be read as one list or as a matrix.
-/

namespace SoftSimplex

/-- Why arrays make no linear program. -/
inductive ArrayFault where
  /-- Lists on one level differ in length or in depth. -/
  | ragged
  /-- There are more levels than a grid can have. -/
  | tooDeep
  /-- An entry is a text that no number is read from. -/
  | unreadable
  /-- An entry is neither a number nor a text. -/
  | notNumeric
  /-- An entry is too large for the numbers in use. -/
  | overflow
  /-- Names are given by something else than texts. -/
  | notNames
  | nameCount (expected given : Nat)
  /-- A matrix comes without its bounds, or bounds without their matrix. -/
  | notTogether
  | matrixShape (found : List Nat) (rows columns : Nat)
  deriving DecidableEq, Repr

/-- Numbers in as many dimensions as `shape` has extents, the last varying fastest. -/
structure Grid (K : Type) where
  shape : List Nat
  entries : List K

namespace Grid

variable {K : Type}

/-- The extents of a grid as a matrix: one number is a matrix of one entry, one list is a row. -/
def matrixShape (grid : Grid K) : List Nat :=
  match grid.shape with
  | [] => [1, 1]
  | [columns] => [1, columns]
  | extents => extents

/-- The rows of a matrix. -/
def rows (grid : Grid K) (rowCount columnCount : Nat) : List (List K) :=
  (List.range rowCount).map fun i => (grid.entries.drop (i * columnCount)).take columnCount

@[simp] theorem length_rows (grid : Grid K) (rowCount columnCount : Nat) :
    (grid.rows rowCount columnCount).length = rowCount := by
  simp [rows]

end Grid

namespace Literal

mutual

/-- The extents of nested lists, if they agree on every level. -/
def shape? : Literal → Option (List Nat)
  | .list items => (itemShape? items).map (items.length :: ·)
  | _ => some []

/-- The extents that all items of a list share; an empty list has items of no extent. -/
def itemShape? : List Literal → Option (List Nat)
  | [] => some []
  | [item] => item.shape?
  | item :: rest =>
    match item.shape?, itemShape? rest with
    | some a, some b => if a = b then some a else none
    | _, _ => none

end

mutual

/-- The values in nested lists, in order. -/
def leaves : Literal → List Literal
  | .list items => itemLeaves items
  | value => [value]

/-- The values in the items of a list, in order. -/
def itemLeaves : List Literal → List Literal
  | [] => []
  | item :: rest => item.leaves ++ itemLeaves rest

end

/-- The number that an entry of an array stands for; a missing one is not a number, and texts are
read. -/
def entry : Literal → Except ArrayFault Float
  | .null => .ok (0.0 / 0.0)
  | .text value =>
    match Decimal.read? value with
    | some x => .ok x
    | none => .error .unreadable
  | value =>
    match value.count? with
    | none => .error .notNumeric
    | some n =>
      match n.toDouble? with
      | some x => .ok x
      | none => .error .overflow

/-- The most levels that a grid can have. -/
def maxLevels : Nat := 64

/-- Nested lists of numbers as a grid. -/
def grid (value : Literal) : Except ArrayFault (Grid Float) :=
  match value.shape? with
  | none => .error .ragged
  | some shape =>
    if maxLevels < shape.length then .error .tooDeep
    else do
      return { shape, entries := ← value.leaves.mapM entry }

end Literal

end SoftSimplex
