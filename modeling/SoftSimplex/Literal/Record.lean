import SoftSimplex.Literal

/-!
Values with named fields.

A field that is null counts as left out, except where the difference matters (`get?`).
-/

namespace SoftSimplex.Literal

/-- The field of a name, which may be null. -/
def get? (value : Literal) (name : String) : Option Literal :=
  match value with
  | .record fields => fields.lookup name
  | _ => none

/-- The field of a name, unless it is left out. -/
def field? (value : Literal) (name : String) : Option Literal :=
  match value.get? name with
  | some .null => none
  | found => found

/-- Whether the field of a name counts as true. -/
def flag (value : Literal) (name : String) : Bool := (value.field? name).any isTruthy

/-- The record with one more field. -/
def extended (value : Literal) (name : String) (added : Literal) : Literal :=
  match value with
  | .record fields => .record (fields ++ [(name, added)])
  | value => value

/-- A field that is added under a new name is found there. -/
theorem get?_extended {fields : List (String × Literal)} {name : String} (added : Literal)
    (fresh : fields.lookup name = none) :
    ((Literal.record fields).extended name added).get? name = some added := by
  simp [extended, get?, List.lookup_append, fresh]

end SoftSimplex.Literal
