import SoftSimplex.Text.Blank
import SoftSimplex.Text.Digit

/-!
Numbers read from text.

A number is a sign, digits with perhaps a point among them, and perhaps an exponent, or one of the
names of what is not finite. Blanks around it do not count, the separators of ASCII apart, nor does an
underscore between two digits, and the digits of every script are read. The value is rounded to the nearest double.
-/

namespace SoftSimplex.Decimal

/-- The double nearest to `mantissa · 10^exponent`. Numbers too large or too small for any double are
told by the place of their first digit. -/
def nearest (mantissa : Nat) (exponent : Int) : Float :=
  let size : Int := (Nat.toDigits 10 mantissa).length + exponent
  if mantissa = 0 || size < -330 then 0.0
  else if 310 < size then 1.0 / 0.0
  else Float.ofScientific mantissa (exponent < 0) exponent.natAbs

/-- A text without its underscores, if each stands between two digits. -/
def withoutUnderscores? : List Char → Option (List Char)
  | [] => some []
  | '_' :: _ => none
  | c :: '_' :: d :: rest =>
    if Text.isDigit c && Text.isDigit d then (withoutUnderscores? (d :: rest)).map (c :: ·) else none
  | c :: rest => (withoutUnderscores? rest).map (c :: ·)

/-- The exponent at the end of a number; without one it is zero. -/
def exponent? : List Char → Option Int
  | [] => some 0
  | mark :: rest =>
    if mark = 'e' || mark = 'E' then
      let (negative, digits) :=
        match rest with
        | '-' :: digits => (true, digits)
        | '+' :: digits => (false, digits)
        | digits => (false, digits)
      if digits.isEmpty || !digits.all Text.isDigit then none
      else some (if negative then -Text.number digits else Text.number digits)
    else none

/-- A number without a sign, in digits. -/
def unsigned? (text : List Char) : Option Float :=
  let whole := text.takeWhile Text.isDigit
  let afterWhole := text.dropWhile Text.isDigit
  let (fraction, tail) :=
    match afterWhole with
    | '.' :: rest => (rest.takeWhile Text.isDigit, rest.dropWhile Text.isDigit)
    | rest => ([], rest)
  if whole.isEmpty && fraction.isEmpty then none
  else
    (exponent? tail).map fun exponent =>
      nearest (Text.number (whole ++ fraction)) (exponent - fraction.length)

/-- A number without a sign, in digits or by name. -/
def magnitude? (text : List Char) : Option Float :=
  match (String.ofList text).toLower with
  | "nan" => some (0.0 / 0.0)
  | "inf" => some (1.0 / 0.0)
  | "infinity" => some (1.0 / 0.0)
  | _ => (withoutUnderscores? text).bind unsigned?

/-- Whether a character may stand around a number: a blank that is no separator. -/
def isMargin (c : Char) : Bool := Text.isBlank c && !(0x1C ≤ c.toNat && c.toNat ≤ 0x1F)

/-- The number that a text stands for. -/
def read? (text : String) : Option Float :=
  match Text.stripped isMargin text.toList with
  | '-' :: rest => (magnitude? rest).map (-·)
  | '+' :: rest => magnitude? rest
  | rest => magnitude? rest

end SoftSimplex.Decimal
