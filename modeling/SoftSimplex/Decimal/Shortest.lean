import SoftSimplex.Decimal.Significant

/-!
Numbers written with the fewest digits that read back.

The real numbers that round to a double form an interval, whose ends belong to it exactly if the
mantissa is even. For one digit, two digits and so on the two neighbours of the value on that decimal
grid are tested against the interval; the first grid with a hit wins, and of two hits the nearer.
-/

namespace SoftSimplex.Decimal

/-- Whether `candidate · 10^scale` rounds to `mantissa · 2^exponent`. All is counted in quarters of
the last binary place. -/
def readsBack (mantissa : Nat) (exponent : Int) (candidate : Nat) (scale : Int) : Bool :=
  let below := 4 * mantissa - (if isNarrowBelow mantissa exponent then 1 else 2)
  let above := 4 * mantissa + 2
  let (n, d) := scaled 10 candidate scale
  let (unit, units) := scaled 2 1 (exponent - 2)
  let value := n * units
  let low := below * unit * d
  let high := above * unit * d
  if mantissa % 2 = 0 then low ≤ value && value ≤ high else low < value && value < high

/-- The digits of a number on the grid of some number of places, if they read back. -/
def onGrid? (mantissa : Nat) (exponent : Int) (places : Nat) : Option Scientific :=
  let (numerator, denominator) := scaled 2 mantissa exponent
  let leading := leadingExponent numerator denominator
  let scale := leading - (places - 1 : Nat)
  let (n, d) := shifted numerator denominator scale
  let lower := n / d
  let pick (candidate : Nat) : Scientific :=
    if candidate = Nat.pow 10 places then .ofSignificand 1 (leading + 1)
    else .ofSignificand candidate leading
  match readsBack mantissa exponent lower scale, readsBack mantissa exponent (lower + 1) scale with
  | true, true => some (pick (roundDiv n d))
  | true, false => some (pick lower)
  | false, true => some (pick (lower + 1))
  | false, false => none

/-- The fewest digits that read back; seventeen always do. -/
def shortest (mantissa : Nat) (exponent : Int) : Scientific :=
  match (List.range 16).findSome? fun n => onGrid? mantissa exponent (n + 1) with
  | some digits => digits
  | none =>
    let (n, d) := scaled 2 mantissa exponent
    significant 17 n d

/-- The text of a number that is quoted in a message: the fewest digits, a fraction even for whole
numbers, and an exponent from `10^16` on and below `10^-4`. -/
def quoted (x : Float) : String :=
  let sign (negative : Bool) : String := if negative then "-" else ""
  let format : Layout := { positionalBelow := 16, showsFraction := true }
  match Binary.ofFloat x with
  | .notANumber => "nan"
  | .infinite negative => sign negative ++ "inf"
  | .finite negative 0 _ => sign negative ++ "0.0"
  | .finite negative mantissa exponent =>
    sign negative ++ format.text (shortest mantissa exponent)

end SoftSimplex.Decimal
