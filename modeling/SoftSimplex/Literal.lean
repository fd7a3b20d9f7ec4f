import SoftSimplex.Numeral
import SoftSimplex.Priority
import SoftSimplex.Text.Blank

/-!
Values as callers and settings files write them, before anything is known of their type.

A priority may be written as a priority, as a strength or by name. `Literal.priority?` reads it and
says why it refuses; a truth value is no strength although it can be counted with.
-/

namespace SoftSimplex

/-- A value of any type that can be written down. -/
inductive Literal where
  | null
  | truth (value : Bool)
  | integer (value : Int)
  | number (value : Float)
  | text (value : String)
  | list (items : List Literal)
  | record (fields : List (String × Literal))
  | priority (value : Priority)
  deriving Inhabited, Repr

namespace Literal

instance : Coe String Literal := ⟨.text⟩
instance : Coe Bool Literal := ⟨.truth⟩

/-- Whether a value counts as true: all but nothing, zero and what is empty. -/
def isTruthy : Literal → Bool
  | .null => false
  | .truth value => value
  | .integer value => value != 0
  | .number value => value != 0.0
  | .text value => !value.isEmpty
  | .list items => !items.isEmpty
  | .record fields => !fields.isEmpty
  | .priority _ => true

/-- The number that a value is. -/
def numeral? : Literal → Option Numeral
  | .integer n => some (.integer n)
  | .number value => some (.double value)
  | _ => none

/-- The number that a value counts as: a truth value counts as one or zero. -/
def count? : Literal → Option Numeral
  | .truth value => some (.integer (if value then 1 else 0))
  | value => value.numeral?

/-- A number as a value. -/
def ofNumeral : Numeral → Literal
  | .integer n => .integer n
  | .double value => .number value

end Literal

/-- Why a value is no priority. -/
inductive PriorityFault where
  /-- No priority has this name. -/
  | unknownName (name : String)
  /-- A strength is no integer. -/
  | strengthType (value : Literal)
  /-- The value is of a type that stands for no priority. -/
  | uninterpretable (value : Literal)
  deriving Repr

/-- The priority of a strength, which must be an integer. -/
def Priority.ofLiteral : Literal → Except PriorityFault Priority
  | .integer strength => .ok (.ofStrength strength)
  | value => .error (.strengthType value)

/-- The priority that a value stands for. Names are read without blanks around them and without
regard to the case of their letters; no letter beyond `a` to `z` has a lower case in any name. -/
def Literal.priority? : Literal → Except PriorityFault Priority
  | .priority p => .ok p
  | .integer strength => .ok (.ofStrength strength)
  | .truth value => .error (.strengthType (.truth value))
  | .text name =>
    match Priority.named.find? fun entry => entry.1 = (Text.trim name).toLower with
    | some (_, p) => .ok p
    | none => .error (.unknownName name)
  | value => .error (.uninterpretable value)

end SoftSimplex
