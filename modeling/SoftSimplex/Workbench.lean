import SoftSimplex.Sorted.Map

/-!
Several solvers side by side.

A workbench holds solvers by number, one of which is in use, names for solvers, and snapshots by name.
A solver is a value that nothing else can change, so a snapshot of it and a fork of it are that value.
A name can be given away to another solver; the one that had it is kept as long as it is in use.
-/

namespace SoftSimplex

/-- Solvers and snapshots by name. -/
structure Workbench (σ : Type) where
  /-- The solvers, in the order that they were made in. -/
  solvers : List σ
  /-- The number of the solver in use. -/
  inUse : Nat := 0
  names : Sorted.Map String Nat := ∅
  snapshots : Sorted.Map String σ := ∅

namespace Workbench

variable {σ : Type}

/-- A workbench with one solver, which is in use. -/
def ofSolver (name : String) (solver : σ) : Workbench σ :=
  { solvers := [solver], names := .ofList [(name, 0)] }

/-- The solver of a number. -/
def solver? (bench : Workbench σ) (number : Nat) : Option σ := bench.solvers[number]?

/-- The solver in use. -/
def current? (bench : Workbench σ) : Option σ := bench.solver? bench.inUse

/-- Replace the solver of a number. -/
def replace (bench : Workbench σ) (number : Nat) (solver : σ) : Workbench σ :=
  { bench with solvers := bench.solvers.set number solver }

/-- Keep a snapshot of the solver in use. -/
def keep (bench : Workbench σ) (name : String) : Workbench σ :=
  match bench.current? with
  | none => bench
  | some solver => { bench with snapshots := bench.snapshots.insert name solver }

/-- Put the solver in use back to a snapshot, if there is one of that name. -/
def restore? (bench : Workbench σ) (name : String) : Option (Workbench σ) :=
  (bench.snapshots.get? name).map (bench.replace bench.inUse)

/-- Give a name to a new solver that equals the one in use. -/
def fork (bench : Workbench σ) (name : String) : Workbench σ :=
  match bench.current? with
  | none => bench
  | some solver =>
    { bench with
      solvers := bench.solvers ++ [solver],
      names := bench.names.insert name bench.solvers.length }

/-- Take another solver into use, if there is one of that name. -/
def use? (bench : Workbench σ) (name : String) : Option (Workbench σ) :=
  (bench.names.get? name).map fun inUse => { bench with inUse }

/-- A snapshot gives back the solver that it was taken of. -/
theorem current?_restore?_keep {bench : Workbench σ} {solver : σ} (used : bench.current? = some solver)
    (name : String) :
    ((bench.keep name).restore? name).bind current? = some solver := by
  have inRange : bench.inUse < bench.solvers.length := (List.getElem?_eq_some_iff.1 used).1
  have kept : (bench.keep name).restore? name =
      some ((bench.keep name).replace bench.inUse solver) := by
    simp [keep, used, restore?]
  rw [kept]
  simp [keep, replace, current?, solver?, inRange]

end Workbench

end SoftSimplex
