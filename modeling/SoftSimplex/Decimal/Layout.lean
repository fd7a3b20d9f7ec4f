/-!
How chosen digits are laid out as text.

`Scientific` holds digits and the exponent of the first of them; a `Layout` says where positional
notation ends and whether whole numbers show a fraction.
-/

namespace SoftSimplex.Decimal

/-- Digits `d₀ d₁ d₂ …` that stand for `d₀.d₁d₂… × 10^exponent`. -/
structure Scientific where
  digits : List Char
  exponent : Int
  deriving DecidableEq, Repr

/-- The decisions of a number format. -/
structure Layout where
  /-- Numbers from `10^-4` to below ten to this power are written positionally. -/
  positionalBelow : Int
  /-- Whether whole numbers end in `.0`. -/
  showsFraction : Bool

/-- A whole number, written as a significand without trailing zeros. -/
def Scientific.ofSignificand (significand : Nat) (exponent : Int) : Scientific :=
  let digits := Nat.toDigits 10 significand
  let stripped := (digits.reverse.dropWhile (· = '0')).reverse
  ⟨if stripped.isEmpty then ['0'] else stripped, exponent⟩

/-- An exponent with its sign and at least two digits. -/
def exponentText (exponent : Int) : String :=
  let digits := toString exponent.natAbs
  (if exponent < 0 then "e-" else "e+") ++ (if digits.length < 2 then "0" ++ digits else digits)

/-- The text of a number without its sign. -/
def Layout.text (format : Layout) (number : Scientific) : String :=
  let join (digits : List Char) : String := String.ofList digits
  if number.exponent < -4 || format.positionalBelow ≤ number.exponent then
    match number.digits with
    | [] => ""
    | [digit] => join [digit] ++ exponentText number.exponent
    | digit :: rest => join [digit] ++ "." ++ join rest ++ exponentText number.exponent
  else if number.exponent < 0 then
    "0." ++ join (List.replicate (number.exponent.natAbs - 1) '0') ++ join number.digits
  else
    let whole := number.exponent.toNat + 1
    let padded := number.digits ++ List.replicate (whole - number.digits.length) '0'
    let fraction := padded.drop whole
    if fraction.isEmpty then
      join (padded.take whole) ++ (if format.showsFraction then ".0" else "")
    else join (padded.take whole) ++ "." ++ join fraction

end SoftSimplex.Decimal
