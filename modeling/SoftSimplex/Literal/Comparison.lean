import SoftSimplex.Literal

/-!
Comparing values.

Numbers and truth values are compared as the numbers that they count as, texts by their characters,
lists item by item, and records field by field without regard to order. Values of different types
differ, and no other values have an order.
-/

namespace SoftSimplex.Literal

mutual

/-- Whether two values are equal. -/
def equals : Literal → Literal → Bool
  | .null, .null => true
  | .truth value, other => countEquals (.truth value) other
  | .integer value, other => countEquals (.integer value) other
  | .number value, other => countEquals (.number value) other
  | .text value, .text other => value = other
  | .priority value, .priority other => value = other
  | .list items, .list others => itemsEqual items others
  | .record fields, .record others => fields.length = others.length && fieldsEqual fields others
  | _, _ => false

/-- Whether two values are equal as numbers. -/
def countEquals (value other : Literal) : Bool :=
  match value.count?, other.count? with
  | some a, some b => a.equals b
  | _, _ => false

/-- Whether two lists hold equal values. -/
def itemsEqual : List Literal → List Literal → Bool
  | [], others => others.isEmpty
  | _, [] => false
  | item :: rest, other :: others => item.equals other && itemsEqual rest others

/-- Whether every field has an equal one of its name among others. -/
def fieldsEqual : List (String × Literal) → List (String × Literal) → Bool
  | [], _ => true
  | (name, value) :: rest, others =>
    (match others.lookup name with
      | some other => value.equals other
      | none => false) && fieldsEqual rest others

end

mutual

/-- Whether a value comes before another, or, if `ties` are admitted, equals it; without an answer for
values that have no order. -/
def precedes? (ties : Bool) : Literal → Literal → Option Bool
  | .text value, .text other => some (value < other || (ties && value = other))
  | .list items, .list others => itemsPrecede? ties items others
  | value, other =>
    match value.count?, other.count? with
    | some a, some b => some (if ties then a.atMost b else a.below b)
    | _, _ => none

/-- Lists are ordered by the first items in which they differ, and a list comes after those that it
continues. -/
def itemsPrecede? (ties : Bool) : List Literal → List Literal → Option Bool
  | [], [] => some ties
  | [], _ => some true
  | _, [] => some false
  | item :: rest, other :: others =>
    if item.equals other then itemsPrecede? ties rest others else item.precedes? ties other

end

end SoftSimplex.Literal
