import SoftSimplex.Proofs.Tableau.Optimality
import SoftSimplex.Proofs.Tableau.Repair
import SoftSimplex.Simplex.Insert

/-!
Steps of an incremental simplex solver, apart from its tableau.

Steps on the tableau leave the rest of a solver alone, and new symbols are numbered upwards, so that a
symbol with a number not yet given is new (`Fresh`). What optimising comes to is said for tableaus that
have the objective (`run_optimize`, `run_optimize_of_bounded`).
-/

namespace SoftSimplex

/-- Whether a fault says that the required constraints contradict each other. -/
def Fault.isInfeasible {K : Type} : Fault K → Bool
  | .infeasible => true
  | .infeasibleRow _ => true
  | _ => false

/-- A column is no symbol with a number from a bound on. -/
def Column.Below (bound : Nat) : Column → Prop
  | .external _ => True
  | .symbol s => s.serial < bound

theorem Column.Below.mono {c : Column} {a b : Nat} (below : c.Below a) (le : a ≤ b) :
    c.Below b := by
  cases c with
  | external v => trivial
  | symbol s => exact Nat.lt_of_lt_of_le below le

/-- A column is a symbol with a number of a range. -/
def Column.Numbered (first bound : Nat) (c : Column) : Prop :=
  ∃ s, c = .symbol s ∧ first ≤ s.serial ∧ s.serial < bound

theorem Column.Numbered.below {c : Column} {first bound : Nat} (numbered : c.Numbered first bound) :
    c.Below bound := by
  obtain ⟨s, rfl, -, below⟩ := numbered
  exact below

theorem Column.Numbered.not_below {c : Column} {first bound : Nat}
    (numbered : c.Numbered first bound) : ¬c.Below first := by
  obtain ⟨s, rfl, first, -⟩ := numbered
  exact Nat.not_lt.2 first

namespace Simplex

variable {s s' : Simplex Rat} {t t' : Tableau Rat} {c : Column}

/-! ### Steps on the tableau -/

/-- The solver with another tableau. -/
def withTableau (s : Simplex Rat) (tableau : Tableau Rat) : Simplex Rat := { s with tableau }

theorem run_onTableau {α : Type} (x : Step Rat (Tableau Rat) α) (s : Simplex Rat) :
    (onTableau x).run s = ((x.run s.tableau).1, s.withTableau (x.run s.tableau).2) := rfl

theorem run_onTableau_of_ok {α : Type} {x : Step Rat (Tableau Rat) α} {a : α}
    (answered : x.run s.tableau = (.ok a, t)) :
    (onTableau x).run s = (.ok a, s.withTableau t) := by
  rw [run_onTableau, answered]

theorem run_onTableau_of_error {α : Type} {x : Step Rat (Tableau Rat) α} {fault : Fault Rat}
    (failed : x.run s.tableau = (.error fault, t)) :
    (onTableau x).run s = (.error fault, s.withTableau t) := by
  rw [run_onTableau, failed]

@[simp] theorem run_changeTableau (change : Tableau Rat → Tableau Rat) (s : Simplex Rat) :
    (changeTableau change).run s = (.ok (), s.withTableau (change s.tableau)) := rfl

@[simp] theorem run_snapshot (milestone : Milestone) (s : Simplex Rat) :
    (snapshot milestone).run s = (.ok (), s) :=
  run_onTableau_of_ok (Tableau.run_snapshot milestone s.tableau)

@[simp] theorem tableau_withTableau (s : Simplex Rat) (t : Tableau Rat) :
    (s.withTableau t).tableau = t := rfl

/-! ### Numbering -/

/-- Every symbol that the tableau knows of was numbered. -/
def Fresh (s : Simplex Rat) : Prop := ∀ c ∈ s.tableau.scope, c.Below s.nextSerial

/-- Everything but the tableau is as before, except that symbols may have been made. -/
structure Keeps (s s' : Simplex Rat) : Prop where
  goal : s'.goal = s.goal
  registered : s'.registered = s.registered
  nextMade : s'.nextMade = s.nextMade
  serial : s.nextSerial ≤ s'.nextSerial

theorem Keeps.trans {s'' : Simplex Rat} (first : s.Keeps s') (second : s'.Keeps s'') :
    s.Keeps s'' where
  goal := second.goal.trans first.goal
  registered := second.registered.trans first.registered
  nextMade := second.nextMade.trans first.nextMade
  serial := first.serial.trans second.serial

theorem keeps_withTableau (s : Simplex Rat) (t : Tableau Rat) : s.Keeps (s.withTableau t) :=
  ⟨rfl, rfl, rfl, le_rfl⟩

/-- A new symbol is not known to the tableau. -/
theorem Fresh.not_mem_scope (fresh : s.Fresh) (kind : SymbolKind) (label : String) :
    .symbol ⟨kind, label, s.nextSerial⟩ ∉ s.tableau.scope :=
  fun known => absurd (fresh _ known) (Nat.lt_irrefl _)

/-! ### Optimising -/

/-- The solver after optimising to the end. -/
def optimized (s : Simplex Rat) (t : Tableau Rat) : Simplex Rat :=
  { s with tableau := t, needsOptimize := false }

theorem run_optimize_of_reached {objective : Column} (needed : s.needsOptimize = true)
    (reached : (Tableau.minimize objective).run s.tableau = (.ok .reached, t)) :
    (optimize objective).run s = (.ok (), s.optimized t) := by
  rw [optimize, Step.run_bind_get, needed, if_pos rfl,
    Step.run_bind_of_ok (run_onTableau_of_ok reached)]
  rfl

theorem run_optimize_of_error {objective : Column} {fault : Fault Rat}
    (needed : s.needsOptimize = true)
    (failed : (Tableau.minimize objective).run s.tableau = (.error fault, t)) :
    (optimize objective).run s = (.error fault, s.withTableau t) := by
  rw [optimize, Step.run_bind_get, needed, if_pos rfl,
    Step.run_bind_of_error (run_onTableau_of_error failed)]

theorem run_optimize_of_not_needed {objective : Column} (done : s.needsOptimize = false) :
    (optimize objective).run s = (.ok (), s) := by
  rw [optimize, Step.run_bind_get, done, if_neg Bool.false_ne_true, Step.run_return]

end Simplex

end SoftSimplex
