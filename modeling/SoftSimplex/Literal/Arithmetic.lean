import SoftSimplex.Literal

/-!
Computing with plain values.

Truth values are computed with as the numbers that they count as. Texts and lists can be joined, and
repeated as often as an integer of 64 bits says. Integers can be joined bit by bit, as if each had
infinitely many bits.
-/

namespace SoftSimplex

/-- Why a computation has no result. -/
inductive ArithmeticFault where
  /-- The operation is not there for these values. -/
  | operands
  | overflow
  | dividedByZero
  /-- The result has more items than fit into any memory. -/
  | tooLong
  deriving DecidableEq, Repr

namespace Literal

/-- The result of an operation on numbers. -/
def compute (operation : Numeral → Numeral → Option Numeral) (a b : Literal) :
    Except ArithmeticFault Literal :=
  match a.count?, b.count? with
  | some x, some y =>
    match operation x y with
    | some z => .ok (ofNumeral z)
    | none => .error .overflow
  | _, _ => .error .operands

/-- Sum of two values. -/
def add : Literal → Literal → Except ArithmeticFault Literal
  | .text a, .text b => .ok (.text (a ++ b))
  | .list a, .list b => .ok (.list (a ++ b))
  | a, b => compute Numeral.add? a b

/-- Difference of two values. -/
def sub (a b : Literal) : Except ArithmeticFault Literal := compute Numeral.sub? a b

/-- How often a value is repeated by an integer, which must have 64 bits; less than once is never. -/
def repetitions (count : Int) : Except ArithmeticFault Nat :=
  let limit : Int := Nat.pow 2 63
  if count < -limit || limit ≤ count then .error .overflow else .ok count.toNat

/-- The most items that any memory holds. -/
def maxItems : Nat := Nat.pow 2 40

/-- A list, as often as an integer says. -/
def repeated {α : Type} (items : List α) (count : Int) : Except ArithmeticFault (List α) := do
  let times ← repetitions count
  if items.isEmpty then return []
  else if maxItems < times * items.length then .error .tooLong
  else return (List.replicate times items).flatten

/-- A text or a list, as often as an integer says. -/
def repeated? : Literal → Literal → Option (Except ArithmeticFault Literal)
  | .text a, b =>
    match b.count? with
    | some (.integer n) => some ((fun items => .text (String.ofList items)) <$> repeated a.toList n)
    | _ => none
  | .list a, b =>
    match b.count? with
    | some (.integer n) => some (.list <$> repeated a n)
    | _ => none
  | _, _ => none

/-- Product of two values. -/
def mul (a b : Literal) : Except ArithmeticFault Literal :=
  match repeated? a b <|> repeated? b a with
  | some result => result
  | none => compute Numeral.mul? a b

/-- Quotient of two values, as a double. Only of integers is it found out that the divisor is zero before
they are rounded. -/
def div (a b : Literal) : Except ArithmeticFault Literal :=
  match a.count?, b.count? with
  | some x, some y =>
    match Numeral.div? x y with
    | some z => if y.isZero then .error .dividedByZero else .ok (ofNumeral z)
    | none => .error .overflow
  | _, _ => .error .operands

/-- The bits that one of two integers has, or both. -/
def bitwiseOr : Int → Int → Int
  | .ofNat a, .ofNat b => .ofNat (a ||| b)
  | .ofNat a, .negSucc b => .negSucc (b - (a &&& b))
  | .negSucc a, .ofNat b => .negSucc (a - (a &&& b))
  | .negSucc a, .negSucc b => .negSucc (a &&& b)

/-- Two values joined bit by bit: truth values, or integers. -/
def union : Literal → Literal → Except ArithmeticFault Literal
  | .truth a, .truth b => .ok (.truth (a || b))
  | a, b =>
    match a.count?, b.count? with
    | some (.integer m), some (.integer n) => .ok (.integer (bitwiseOr m n))
    | _, _ => .error .operands

/-- Minus a value. -/
def neg (a : Literal) : Except ArithmeticFault Literal :=
  match a.count? with
  | some x => .ok (ofNumeral x.neg)
  | none => .error .operands

/-- A value under a plus sign. -/
def pos (a : Literal) : Except ArithmeticFault Literal :=
  match a.count? with
  | some x => .ok (ofNumeral x)
  | none => .error .operands

end Literal

end SoftSimplex
