import SoftSimplex.Step
import SoftSimplex.Constraint.Text
import SoftSimplex.Tableau.Text
import SoftSimplex.Literal.Text

/-!
What is said when a step fails, and what a step reports while it works.

An event is either a line of the log or a warning: only a strength that was lowered is warned of.
-/

namespace SoftSimplex

/-- What is said when a step fails; some failures have no words of their own. -/
def Fault.message? : Fault Float → Option String
  | .constraintExists c => some s!"Constraint has already been added: {c.text}"
  | .constraintNotFound c => some s!"Constraint not found: {c.text}"
  | .optionalConstraint c => some s!"Optional constraint {c.text} needs a Cassowary Solver"
  | .stayExists v => some s!"{v.label} is already a stay variable"
  | .editExists v => some s!"{v.label} is already an edit variable"
  | .editNotFound v suggested =>
    some s!"{v.label} is not an edit variable (suggested value {Decimal.short suggested})"
  | .infeasibleRow row => some s!"Infeasible row: 0 = {row.text}"
  | .infeasible => some "Required constraints are infeasible"
  | .unbounded => some "Objective function is unbounded"
  | .dualFailed => some "Dual simplex could not restore feasibility"
  | .noSession => some "end_edit() called without an open edit session"
  | .notBasic column => some s!"{column.label} is not basic"
  | .priority fault => some fault.message
  | .missing _ => none
  | .divisionByZero => none
  | .overflow => none
  | .incomparable => none
  | .rowChanged => none
  | .unfinished => none

/-- How a point of a run is named in the log. -/
def Milestone.text : Milestone → String
  | .constraintAdded => "end add_constraint"
  | .constraintRemoved => "end remove_constraint"
  | .beforePhaseOne => "before phase 1"
  | .afterPhaseOne => "after phase 1"
  | .unbounded => "unbounded"
  | .dualFailed => "dual optimize failed"
  | .editBegun => "end begin_edit"
  | .editEnded => "end end_edit"

/-- What is warned of when a strength is lowered to a limit. -/
def Priority.clampWarning (priority : Priority) (limit : Literal) : String :=
  s!"Priority strength {priority.strength} exceeds {limit.quoted} and was clamped"

namespace Event

/-- The line that an event puts into the log. -/
def log? : Event Float → Option String
  | .adding c => some s!"add_constraint: {c.text}"
  | .removing c => some s!"remove_constraint: {c.text}"
  | .pivoting entry exit => some s!"pivot {exit.label} -> {entry.label}"
  | .entering entry exit ratio =>
    some s!"optimize: {entry.label} enters, {exit.label} exits (ratio {Decimal.short ratio})"
  | .snapshot milestone t => some s!"{milestone.text}\n{t.text}"
  | .suggesting v value change =>
    let amounts := s!"{Decimal.short value} (delta {Decimal.short change})"
    some s!"suggest_value: {v.label} = {amounts}"
  | .clamping _ _ => none

/-- What an event warns of. -/
def warning? : Event Float → Option String
  | .clamping priority limit => some (priority.clampWarning limit)
  | _ => none

end Event

end SoftSimplex
