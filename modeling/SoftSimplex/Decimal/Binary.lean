/-!
What a double stands for: nothing, an infinity, or a whole number times a power of two.
-/

namespace SoftSimplex.Decimal

/-- The value of a double. -/
inductive Binary where
  | notANumber
  | infinite (negative : Bool)
  | finite (negative : Bool) (mantissa : Nat) (exponent : Int)
  deriving DecidableEq, Repr

/-- The mantissa of a number that is a power of two. -/
def leastNormal : Nat := Nat.pow 2 52

/-- Take a double apart. The exponent field is biased by 1075 for a mantissa that is read as a whole
number; subnormal numbers lack the leading bit and share the least exponent. -/
def Binary.ofFloat (x : Float) : Binary :=
  let bits := x.toBits.toNat
  let negative : Bool := 2048 ≤ bits / leastNormal
  let field : Nat := bits / leastNormal % 2048
  let fraction : Nat := bits % leastNormal
  if field = 2047 then
    if fraction = 0 then .infinite negative else .notANumber
  else if field = 0 then .finite negative fraction (-1074)
  else .finite negative (leastNormal + fraction) ((field : Int) - 1075)

/-- Whether the gap below a number is half as wide as the gap above it. -/
def isNarrowBelow (mantissa : Nat) (exponent : Int) : Bool :=
  mantissa = leastNormal && -1074 < exponent

/-- A whole number times a power of some base, as a quotient of whole numbers. -/
def scaled (base mantissa : Nat) (exponent : Int) : Nat × Nat :=
  match exponent with
  | .ofNat n => (mantissa * Nat.pow base n, 1)
  | .negSucc n => (mantissa, Nat.pow base (n + 1))

/-- A signed whole number times a power of two, counted in units of a lesser power of two. -/
def units (least : Int) (negative : Bool) (mantissa : Nat) (exponent : Int) : Int :=
  let count : Int := mantissa * Nat.pow 2 (exponent - least).toNat
  if negative then -count else count

/-- Whether a value is at most another; what is not a number compares with nothing. -/
def Binary.atMost : Binary → Binary → Bool
  | .notANumber, _ => false
  | _, .notANumber => false
  | .infinite true, _ => true
  | _, .infinite negative => !negative
  | .infinite false, _ => false
  | .finite negative mantissa exponent, .finite negative' mantissa' exponent' =>
    let least := min exponent exponent'
    units least negative mantissa exponent ≤ units least negative' mantissa' exponent'

end SoftSimplex.Decimal
