import SoftSimplex.Constraint
import SoftSimplex.Quantity
import SoftSimplex.Literal.Arithmetic
import SoftSimplex.Literal.Comparison

/-!
Formulas: what callers write before it is known what their operators stand for.

Between numbers and expressions an operator builds an expression or a constraint; plain values are
computed with and compared as such, and all else is refused. `Formula.eval` is that reading. Every relation
and every change of a priority makes a constraint of its own, with the next unused tag, and two
constraints are the same only if their tags are.
-/

namespace SoftSimplex

/-- What a formula can stand for. -/
inductive Operand where
  /-- A plain value, a number or something else. -/
  | value (value : Literal)
  | expression (e : LinExpr Quantity)
  | constraint (c : Constraint Quantity)

/-- Why a formula stands for nothing. -/
inductive FormulaFault where
  /-- The operator does not take these operands. -/
  | operands
  /-- An expression is divided by zero. -/
  | dividedByZero
  /-- A plain number is divided by zero. -/
  | quotientByZero
  /-- A text or a list is repeated too often. -/
  | tooLong
  /-- A constraint is asked whether it is true. -/
  | noTruthValue
  /-- A constraint is taken for an expression. -/
  | constraintAsExpression
  /-- A value that is no number is taken for an expression. -/
  | valueAsExpression (value : Literal)
  /-- An integer is too large for a double. -/
  | overflow
  /-- Only constraints have priorities. -/
  | noPriority
  | priority (fault : PriorityFault)

/-- A failed computation with plain values as a fault of the formula. -/
def FormulaFault.ofArithmetic : ArithmeticFault → FormulaFault
  | .operands => .operands
  | .overflow => .overflow
  | .dividedByZero => .quotientByZero
  | .tooLong => .tooLong

/-- The operators between two operands. -/
inductive Operation where
  | add
  | sub
  | mul
  | div
  | compare (comparator : Comparator)
  | differ
  | less
  | greater
  deriving DecidableEq, Repr

/-- The operation that an operator stands for. -/
def Operation.ofText? : String → Option Operation
  | "+" => some .add
  | "-" => some .sub
  | "*" => some .mul
  | "/" => some .div
  | "==" => some (.compare .eq)
  | "<=" => some (.compare .le)
  | ">=" => some (.compare .ge)
  | "!=" => some .differ
  | "<" => some .less
  | ">" => some .greater
  | _ => none

/-- A formula. -/
inductive Formula where
  | operand (value : Operand)
  | binary (operation : Operation) (left right : Formula)
  /-- A formula under a minus sign. -/
  | negated (body : Formula)
  /-- A formula under a plus sign. -/
  | signed (body : Formula)
  /-- A formula that must stand for an expression. -/
  | asExpression (body : Formula)
  /-- A constraint wanted with a priority, by the operator for that. A value of a type that is no
  priority counts as a wrong operand. The same operator joins plain values. -/
  | prioritized (body : Formula) (priority : Literal)
  /-- A constraint wanted with a priority, by name. What is wrong with the priority is said. -/
  | withPriority (body : Formula) (priority : Literal)
  /-- Whether what a formula stands for counts as true. -/
  | truth (body : Formula)

/-- Readings of formulas: they may fail, and they number the constraints that they make. -/
abbrev Reading := StateT Nat (Except FormulaFault)

namespace Operand

/-- A number as a constant; beside an expression it is rounded to a double. -/
def constant (value : Numeral) : Except FormulaFault (LinExpr Quantity) :=
  match value.toDouble? with
  | some x => .ok (.constant (.double x))
  | none => .error .overflow

/-- The expression that an operand is beside another expression, if it is one there. -/
def term? : Operand → Except FormulaFault (Option (LinExpr Quantity))
  | .value plain =>
    match plain.numeral? with
    | some n => some <$> constant n
    | none => .ok none
  | .expression e => .ok (some e)
  | .constraint _ => .ok none

/-- The expression that an operand stands for. -/
def toExpression : Operand → Except FormulaFault (LinExpr Quantity)
  | .value plain =>
    match plain.numeral? with
    | some n => constant n
    | none => .error (.valueAsExpression plain)
  | .expression e => .ok e
  | .constraint _ => .error .constraintAsExpression

/-- Both sides of an operator as expressions, if one of them is an expression already and the other
can be one. -/
def terms? : Operand → Operand → Except FormulaFault (Option (LinExpr Quantity × LinExpr Quantity))
  | .expression a, right => return (← right.term?).map fun b => (a, b)
  | left, .expression b => return (← left.term?).map fun a => (a, b)
  | _, _ => .ok none

/-- The result of a computation with plain values. -/
def ofArithmetic : Except ArithmeticFault Literal → Except FormulaFault Operand
  | .ok result => .ok (.value result)
  | .error fault => .error (.ofArithmetic fault)

/-- Sums and differences: of plain values, or of expressions joined by `join`. -/
def sum (values : Literal → Literal → Except ArithmeticFault Literal)
    (join : LinExpr Quantity → LinExpr Quantity → LinExpr Quantity) :
    Operand → Operand → Except FormulaFault Operand
  | .value a, .value b => ofArithmetic (values a b)
  | left, right => do
    match ← terms? left right with
    | some (a, b) => return .expression (join a b)
    | none => .error .operands

/-- A multiple of an expression, if the factor is a number. -/
def multiple (factor : Literal) (e : LinExpr Quantity) : Except FormulaFault Operand :=
  match factor.numeral? with
  | none => .error .operands
  | some n =>
    match n.toDouble? with
    | some x => .ok (.expression (.scale (.double x) e))
    | none => .error .overflow

/-- Products: one side must be a plain value. -/
def product : Operand → Operand → Except FormulaFault Operand
  | .value a, .value b => ofArithmetic (a.mul b)
  | .expression e, .value factor => multiple factor e
  | .value factor, .expression e => multiple factor e
  | _, _ => .error .operands

/-- Quotients: the divisor must be a number. An expression is multiplied by its reciprocal. -/
def quotient : Operand → Operand → Except FormulaFault Operand
  | .value a, .value b => ofArithmetic (a.div b)
  | .expression e, .value divisor =>
    match divisor.numeral? with
    | none => .error .operands
    | some n =>
      if n.isZero then .error .dividedByZero
      else
        match n.toDouble? with
        | some x => .ok (.expression (.scale (.double (1 / x)) e))
        | none => .error .overflow
  | _, _ => .error .operands

/-- The relation between two operands as a constraint, if they can be related. A number before an
expression changes places with it. -/
def relation? (tag : Tag) (comparator : Comparator) (left right : Operand) :
    Except FormulaFault (Option (Constraint Quantity)) := do
  match left, ← terms? left right with
  | .expression _, some (a, b) => return some { tag, left := a, comparator, right := b }
  | _, some (a, b) => return some { tag, left := b, comparator := comparator.inverted, right := a }
  | _, none => return none

/-- Whether two operands that make no constraint are the same. -/
def same : Operand → Operand → Bool
  | .value a, .value b => a.equals b
  | .constraint a, .constraint b => a.tag = b.tag
  | _, _ => false

/-- Whether an operand comes before another, or, if `ties` are admitted, equals it; only plain values
have an order. -/
def precedes (ties : Bool) : Operand → Operand → Except FormulaFault Bool
  | .value a, .value b =>
    match a.precedes? ties b with
    | some answer => .ok answer
    | none => .error .operands
  | _, _ => .error .operands

/-- Whether an operand counts as true. -/
def isTrue : Operand → Except FormulaFault Bool
  | .value plain => .ok plain.isTruthy
  | .expression _ => .ok true
  | .constraint _ => .error .noTruthValue

/-- Minus an operand. -/
def negation : Operand → Except FormulaFault Operand
  | .value plain => ofArithmetic plain.neg
  | .expression e => .ok (.expression e.neg)
  | .constraint _ => .error .operands

/-- An operand under a plus sign. -/
def affirmation : Operand → Except FormulaFault Operand
  | .value plain => ofArithmetic plain.pos
  | .expression e => .ok (.expression e)
  | .constraint _ => .error .operands

/-- A truth value as an operand. -/
def ofBool (value : Bool) : Operand := .value (.truth value)

end Operand

namespace Reading

/-- The next unused tag. -/
def freshTag : Reading Tag := fun n => .ok (.given n, n + 1)

/-- What the comparison of two operands makes, a constraint if they can be related. -/
def relate (comparator : Comparator) (left right : Operand) : Reading Operand := do
  match ← left.relation? (← freshTag) comparator right, comparator with
  | some c, _ => return .constraint c
  | none, .eq => return .ofBool (left.same right)
  | none, .le => return .ofBool (← left.precedes true right)
  | none, .ge => return .ofBool (← right.precedes true left)

/-- What a binary operator makes of two operands. -/
def apply (operation : Operation) (left right : Operand) : Reading Operand := do
  match operation with
  | .add => left.sum Literal.add .add right
  | .sub => left.sum Literal.sub (.sub) right
  | .mul => left.product right
  | .div => left.quotient right
  | .compare comparator => relate comparator left right
  | .differ =>
    match ← left.relation? (← freshTag) .eq right with
    | some _ => throw .noTruthValue
    | none => return .ofBool (!left.same right)
  | .less => return .ofBool (← left.precedes false right)
  | .greater => return .ofBool (← right.precedes false left)

/-- A constraint like another with a priority of its own. -/
def reprioritize (c : Constraint Quantity) (priority : Priority) : Reading Operand := do
  return .constraint (c.withPriority (← freshTag) priority)

/-- What the operator for priorities makes: a constraint, or two plain values joined. -/
def prioritize (body : Operand) (priority : Literal) : Reading Operand :=
  match body, priority.priority? with
  | .value a, _ => Operand.ofArithmetic (a.union priority)
  | .constraint c, .ok p => reprioritize c p
  | .constraint _, .error (.unknownName name) => throw (.priority (.unknownName name))
  | _, _ => throw .operands

/-- The constraint that is made by name. -/
def prioritizeByName (body : Operand) (priority : Literal) : Reading Operand :=
  match body, priority.priority? with
  | .constraint c, .ok p => reprioritize c p
  | .constraint _, .error fault => throw (.priority fault)
  | _, _ => throw .noPriority

end Reading

/-- What a formula stands for. Operands are read from left to right. -/
def Formula.eval : Formula → Reading Operand
  | .operand value => return value
  | .binary operation left right => do
    let a ← left.eval
    let b ← right.eval
    Reading.apply operation a b
  | .negated body => do (← body.eval).negation
  | .signed body => do (← body.eval).affirmation
  | .asExpression body => do return .expression (← (← body.eval).toExpression)
  | .prioritized body priority => do Reading.prioritize (← body.eval) priority
  | .withPriority body priority => do Reading.prioritizeByName (← body.eval) priority
  | .truth body => do return .ofBool (← (← body.eval).isTrue)

end SoftSimplex
