import SoftSimplex.Literal
import SoftSimplex.Decimal.Shortest
import SoftSimplex.Text.Quoted

/-!
How values are quoted in messages, and what their types are called there.
-/

namespace SoftSimplex

namespace Literal

/-- The short name of a value's type. -/
def typeName : Literal → String
  | .null => "NoneType"
  | .truth _ => "bool"
  | .integer _ => "int"
  | .number _ => "float"
  | .text _ => "str"
  | .list _ => "list"
  | .record _ => "dict"
  | .priority _ => "Priority"

/-- The type of a value as messages show it. -/
def typeText : Literal → String
  | .priority _ => "<class 'casso.priority.Priority'>"
  | value => s!"<class '{value.typeName}'>"

mutual

/-- A value as messages quote it. -/
def quoted : Literal → String
  | .null => "None"
  | .truth value => if value then "True" else "False"
  | .integer value => toString value
  | .number value => Decimal.quoted value
  | .text value => Text.quoted value
  | .list items => "[" ++ ", ".intercalate (quotedItems items) ++ "]"
  | .record fields => "\x7b" ++ ", ".intercalate (quotedFields fields) ++ "\x7d"
  | .priority value => s!"Priority(strength={value.strength})"

/-- The values of a list, each as messages quote it. -/
def quotedItems : List Literal → List String
  | [] => []
  | item :: rest => item.quoted :: quotedItems rest

/-- The fields of a record, each as messages quote it. -/
def quotedFields : List (String × Literal) → List String
  | [] => []
  | (name, value) :: rest =>
    s!"{Text.quoted name}: {value.quoted}" :: quotedFields rest

end

end Literal

/-- What is said when a value is no priority. -/
def PriorityFault.message : PriorityFault → String
  | .unknownName name =>
    let names := ", ".intercalate (Priority.named.map (·.1))
    s!"Unknown priority {Text.quoted name}, expected one of {names}"
  | .strengthType value => s!"Priority strength must be an integer, got {value.typeText}"
  | .uninterpretable value => s!"Cannot interpret {value.quoted} as a priority"

end SoftSimplex
