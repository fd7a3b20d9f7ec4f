import SoftSimplex.Literal
import SoftSimplex.Decimal.Shortest
import SoftSimplex.Text.Quoted

/-!
Values written in JSON notation.

A double is written with the fewest digits that read back, and with a point or an exponent, so that
it is read as a double again. Fields keep their order.
-/

namespace SoftSimplex.Json

/-- A character between quotes. -/
def character (c : Char) : List Char :=
  if c = '"' || c = '\\' then ['\\', c]
  else if c.toNat < 0x20 then '\\' :: 'u' :: Text.hex 4 c.toNat
  else [c]

/-- A text in quotes. -/
def quoted (text : String) : String :=
  String.ofList ('"' :: (text.toList.flatMap character ++ ['"']))

/-- A double; what is not finite is written by name. -/
def double (value : Float) : String :=
  match Decimal.Binary.ofFloat value with
  | .notANumber => "NaN"
  | .infinite negative => if negative then "-Infinity" else "Infinity"
  | .finite _ _ _ => Decimal.quoted value

mutual

/-- A value in JSON notation. A priority is written as its strength. -/
def write : Literal → String
  | .null => "null"
  | .truth value => if value then "true" else "false"
  | .integer value => toString value
  | .number value => double value
  | .text value => quoted value
  | .list values => "[" ++ ",".intercalate (items values) ++ "]"
  | .record entries => "\x7b" ++ ",".intercalate (fields entries) ++ "\x7d"
  | .priority value => toString value.strength

/-- The items of a list, each in JSON notation. -/
def items : List Literal → List String
  | [] => []
  | item :: rest => write item :: items rest

/-- The fields of a record, each in JSON notation. -/
def fields : List (String × Literal) → List String
  | [] => []
  | (name, value) :: rest => (quoted name ++ ":" ++ write value) :: fields rest

end

end SoftSimplex.Json
