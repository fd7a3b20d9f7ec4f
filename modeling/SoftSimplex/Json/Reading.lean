import SoftSimplex.Literal
import SoftSimplex.Decimal.Reading

/-!
Values read from JSON notation.

Whole numbers without point or exponent are integers of any size, and all other numbers are doubles.
Fields keep the order that they are written in.
-/

namespace SoftSimplex.Json

/-- The text after the blanks at its front. -/
def skipBlanks (text : List Char) : List Char :=
  text.dropWhile fun c => c = ' ' || c = '\n' || c = '\r' || c = '\t'

/-- A code unit in four hexadecimal digits, and the text after it. -/
def codeUnit? : List Char → Option (Nat × List Char)
  | a :: b :: c :: d :: rest =>
    let digit (c : Char) : Option Nat :=
      if c.isDigit then some (c.toNat - '0'.toNat)
      else if 'a' ≤ c && c ≤ 'f' then some (c.toNat - 'a'.toNat + 10)
      else if 'A' ≤ c && c ≤ 'F' then some (c.toNat - 'A'.toNat + 10)
      else none
    ([a, b, c, d].mapM digit).map fun digits => (digits.foldl (fun n d => 16 * n + d) 0, rest)
  | _ => none

/-- The character of an escape by number, and the text after it. Two surrogates make one character,
and one alone counts as a character that cannot be represented. -/
def numberedEscape? (text : List Char) : Option (Char × List Char) := do
  let (unit, rest) ← codeUnit? text
  let replacement := Char.ofNat 0xFFFD
  if 0xD800 ≤ unit && unit < 0xDC00 then
    match rest with
    | '\\' :: 'u' :: more =>
      let (low, after) ← codeUnit? more
      if 0xDC00 ≤ low && low < 0xE000 then
        some (Char.ofNat (0x10000 + (unit - 0xD800) * 0x400 + (low - 0xDC00)), after)
      else some (replacement, rest)
    | _ => some (replacement, rest)
  else if 0xDC00 ≤ unit && unit < 0xE000 then some (replacement, rest)
  else some (Char.ofNat unit, rest)

/-- What stands after a backslash, and the text after it. -/
def escape? : List Char → Option (Char × List Char)
  | 'n' :: rest => some ('\n', rest)
  | 't' :: rest => some ('\t', rest)
  | 'r' :: rest => some ('\r', rest)
  | 'b' :: rest => some ('\x08', rest)
  | 'f' :: rest => some ('\x0c', rest)
  | 'u' :: rest => numberedEscape? rest
  | c :: rest => if c = '"' || c = '\\' || c = '/' then some (c, rest) else none
  | [] => none

/-- The characters up to the closing quote, in reverse order before `read`, and the text after it.
Each step consumes a character, so the length of the text is a bound on `steps`. -/
def characters? : Nat → List Char → List Char → Option (String × List Char)
  | 0, _, _ => none
  | _, _, [] => none
  | steps + 1, read, c :: rest =>
    if c = '"' then some (String.ofList read.reverse, rest)
    else if c = '\\' then
      match escape? rest with
      | some (character, after) => characters? steps (character :: read) after
      | none => none
    else characters? steps (c :: read) rest

/-- A number by its characters. -/
def ofNumber? (text : List Char) : Option Literal :=
  let (negative, digits) :=
    match text with
    | '-' :: digits => (true, digits)
    | digits => (false, digits)
  if digits.isEmpty then none
  else if digits.all Char.isDigit then
    some (.integer (if negative then -Text.number digits else Text.number digits))
  else (Decimal.read? (String.ofList text)).map .number

/-- Whether a character can stand in a number or in a name. -/
def isWordChar (c : Char) : Bool := c.isAlphanum || c = '-' || c = '+' || c = '.'

/-- A value that is written as one word. -/
def ofWord? (word : List Char) : Option Literal :=
  match String.ofList word with
  | "null" => some .null
  | "true" => some (.truth true)
  | "false" => some (.truth false)
  | "NaN" => some (.number (0.0 / 0.0))
  | "Infinity" => some (.number (1.0 / 0.0))
  | "-Infinity" => some (.number (-1.0 / 0.0))
  | _ => ofNumber? word

mutual

/-- The value at the front of a text, and the text after it. Every call follows a character, so the
length of the text is a bound on `steps`. -/
def value? : Nat → List Char → Option (Literal × List Char)
  | 0, _ => none
  | steps + 1, text =>
    match skipBlanks text with
    | '"' :: rest => (characters? (rest.length + 1) [] rest).map fun (s, after) => (.text s, after)
    | '[' :: rest =>
      match skipBlanks rest with
      | ']' :: after => some (.list [], after)
      | _ => (items? steps rest).map fun (items, after) => (.list items, after)
    | '\x7b' :: rest =>
      match skipBlanks rest with
      | '\x7d' :: after => some (.record [], after)
      | _ => (fields? steps rest).map fun (fields, after) => (.record fields, after)
    | word =>
      (ofWord? (word.takeWhile isWordChar)).map fun value => (value, word.dropWhile isWordChar)

/-- The values up to a closing bracket. -/
def items? : Nat → List Char → Option (List Literal × List Char)
  | 0, _ => none
  | steps + 1, text =>
    match value? steps text with
    | none => none
    | some (item, rest) =>
      match skipBlanks rest with
      | ',' :: more => (items? steps more).map fun (items, after) => (item :: items, after)
      | ']' :: after => some ([item], after)
      | _ => none

/-- The fields up to a closing brace. -/
def fields? : Nat → List Char → Option (List (String × Literal) × List Char)
  | 0, _ => none
  | steps + 1, text =>
    match skipBlanks text with
    | '"' :: rest =>
      match characters? (rest.length + 1) [] rest with
      | none => none
      | some (name, rest) =>
        match skipBlanks rest with
        | ':' :: rest =>
          match value? steps rest with
          | none => none
          | some (value, rest) =>
            match skipBlanks rest with
            | ',' :: more =>
              (fields? steps more).map fun (fields, after) => ((name, value) :: fields, after)
            | '\x7d' :: after => some ([(name, value)], after)
            | _ => none
        | _ => none
    | _ => none

end

/-- The value that a text in JSON notation stands for. -/
def read? (text : String) : Option Literal :=
  let characters := text.toList
  match value? (characters.length + 1) characters with
  | some (value, rest) => if (skipBlanks rest).isEmpty then some value else none
  | none => none

end SoftSimplex.Json
