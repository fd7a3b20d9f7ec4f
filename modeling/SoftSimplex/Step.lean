import SoftSimplex.Tableau
import SoftSimplex.Literal

/-!
Steps of a solver: what they leave behind, why they fail, and what they report.

A step changes a state and either answers or fails. A failure keeps the state that it was met in,
because a tableau that was half changed can be seen afterwards; only `transaction` puts the state
back. What happened is reported in order as `Event`s, and a report is never taken back.

`run_bind_ok` and `run_bind_error` say how two steps follow each other.
-/

namespace SoftSimplex

/-- Why a step failed. -/
inductive Fault (K : Type) where
  | constraintExists (c : Constraint K)
  | constraintNotFound (c : Constraint K)
  /-- An optional constraint was given to a solver that knows required ones only. -/
  | optionalConstraint (c : Constraint K)
  | stayExists (v : Variable)
  | editExists (v : Variable)
  | editNotFound (v : Variable) (suggested : K)
  /-- A row without columns to solve for does not come out as zero. -/
  | infeasibleRow (row : Row K)
  | infeasible
  | unbounded
  | dualFailed
  | noSession
  /-- The column to leave the basis is not in it. -/
  | notBasic (column : Column)
  /-- A row or term is missing that the index or another row promised. -/
  | missing (column : Column)
  | divisionByZero
  /-- A computation has no number for a result, or a number is too large to be written. -/
  | overflow
  /-- A number is compared with a setting that is no number. -/
  | incomparable
  /-- A row lost a term while it was read. -/
  | rowChanged
  | priority (fault : PriorityFault)
  /-- A loop was cut off before it came to an end. -/
  | unfinished

/-- Points of a run at which the whole tableau is reported. -/
inductive Milestone where
  | constraintAdded
  | constraintRemoved
  | beforePhaseOne
  | afterPhaseOne
  | unbounded
  | dualFailed
  | editBegun
  | editEnded
  deriving DecidableEq, Repr

/-- What a solver reports while it works. -/
inductive Event (K : Type) where
  | adding (c : Constraint K)
  | removing (c : Constraint K)
  | pivoting (entry exit : Column)
  | entering (entry exit : Column) (ratio : K)
  | snapshot (milestone : Milestone) (tableau : Tableau K)
  | suggesting (v : Variable) (value change : K)
  /-- A strength was lowered to the limit. -/
  | clamping (priority : Priority) (limit : Literal)

/-- What a step leaves: an answer or a fault, the state, and the events in order. -/
structure Outcome (K σ α : Type) where
  result : Except (Fault K) α
  state : σ
  events : List (Event K) := []

/-- A step on states of type `σ` that answers with an `α`. -/
def Step (K σ α : Type) : Type := σ → Outcome K σ α

namespace Step

variable {K σ τ α β : Type}

/-- Answer at once. -/
@[inline]
def pure (a : α) : Step K σ α := fun s => ⟨.ok a, s, []⟩

/-- One step after another; a fault of the first is the fault of both. -/
@[inline]
def bind (x : Step K σ α) (next : α → Step K σ β) : Step K σ β := fun s =>
  let first := x s
  match first.result with
  | .error fault => ⟨.error fault, first.state, first.events⟩
  | .ok a =>
    let second := next a first.state
    ⟨second.result, second.state, first.events ++ second.events⟩

@[always_inline]
instance : Monad (Step K σ) where
  pure := pure
  bind := bind

/-- Fail, in the state that there is. -/
def fail (fault : Fault K) : Step K σ α := fun s => ⟨.error fault, s, []⟩

/-- Report an event. -/
def report (event : Event K) : Step K σ Unit := fun s => ⟨.ok (), s, [event]⟩

/-- The state. -/
def get : Step K σ σ := fun s => ⟨.ok s, s, []⟩

/-- Replace the state. -/
def set (s : σ) : Step K σ Unit := fun _ => ⟨.ok (), s, []⟩

/-- Change the state. -/
def modify (change : σ → σ) : Step K σ Unit := fun s => ⟨.ok (), change s, []⟩

/-- The answer of an option, or a fault. -/
def ofOption (fault : Fault K) : Option α → Step K σ α
  | none => fail fault
  | some a => pure a

/-- The answer of a computation that may fail. -/
def ofExcept : Except (Fault K) α → Step K σ α
  | .error fault => fail fault
  | .ok a => pure a

/-- Fail unless a condition holds. -/
def ensure (fault : Fault K) (condition : Bool) : Step K σ Unit :=
  if condition then pure () else fail fault

/-- A value, if it is a number. -/
def checked [Scalar K] (value : K) : Except (Fault K) K :=
  if Scalar.isNumber value then .ok value else .error .overflow

/-- A step on a part of the state. -/
def zoom (part : σ → τ) (put : τ → σ → σ) (x : Step K τ α) : Step K σ α := fun s =>
  let inner := x (part s)
  ⟨inner.result, put inner.state s, inner.events⟩

/-- A step whose failure puts the state back. What it reported stays reported. -/
def transaction (x : Step K σ α) : Step K σ α := fun s =>
  let out := x s
  match out.result with
  | .error fault => ⟨.error fault, s, out.events⟩
  | .ok a => ⟨.ok a, out.state, out.events⟩

/-- A step, and then another whether the first failed or not; of two faults the later stands. -/
def thenAlways (x : Step K σ α) (closing : Step K σ Unit) : Step K σ α := fun s =>
  let first := x s
  let second := closing first.state
  ⟨match second.result with
    | .error fault => .error fault
    | .ok _ => first.result,
    second.state, first.events ++ second.events⟩

/-- A step for each element of a list, in order. -/
def forEach (items : List α) (x : α → Step K σ Unit) : Step K σ Unit :=
  match items with
  | [] => pure ()
  | item :: rest => bind (x item) fun _ => forEach rest x

/-! ### Limits on strengths -/

/-- A priority within a limit on strengths; required stays required. Lowering is reported, and only
then it is found out whether the limit can be a strength. -/
def clamp (priority : Priority) (limit : Literal) : Step K σ Priority :=
  match priority with
  | .required => pure .required
  | .optional strength =>
    match limit.count? with
    | none => fail .incomparable
    | some most =>
      if (Numeral.integer strength).atMost most then pure priority
      else
        bind (report (.clamping priority limit)) fun _ =>
          match Priority.ofLiteral limit with
          | .ok lowered => pure lowered
          | .error fault => fail (.priority fault)

/-! ### How steps follow each other -/

theorem run_bind_ok {x : Step K σ α} {next : α → Step K σ β} {s : σ} {a : α}
    (answered : (x s).result = .ok a) :
    (x >>= next) s =
      ⟨(next a (x s).state).result, (next a (x s).state).state,
        (x s).events ++ (next a (x s).state).events⟩ := by
  show bind x next s = _
  simp [bind, answered]

theorem run_bind_error {x : Step K σ α} {next : α → Step K σ β} {s : σ} {fault : Fault K}
    (failed : (x s).result = .error fault) :
    (x >>= next) s = ⟨.error fault, (x s).state, (x s).events⟩ := by
  show bind x next s = _
  simp [bind, failed]

/-- A step that fails in a transaction has not changed the state. -/
theorem state_transaction_of_error {x : Step K σ α} {s : σ} {fault : Fault K}
    (failed : (x s).result = .error fault) : (transaction x s).state = s := by
  simp [transaction, failed]

/-- A transaction of a step that answers is that step. -/
theorem transaction_of_ok {x : Step K σ α} {s : σ} {a : α} (answered : (x s).result = .ok a) :
    transaction x s = x s := by
  simp only [transaction, answered]
  rw [← answered]

@[simp] theorem run_pure (a : α) (s : σ) :
    (Pure.pure a : Step K σ α) s = ⟨.ok a, s, []⟩ := rfl

@[simp] theorem run_fail (fault : Fault K) (s : σ) :
    (fail fault : Step K σ α) s = ⟨.error fault, s, []⟩ := rfl

@[simp] theorem ensure_true (fault : Fault K) : (ensure fault true : Step K σ Unit) = pure () := rfl

@[simp] theorem checked_rat (value : Rat) : checked value = .ok value := rfl

end Step

end SoftSimplex
