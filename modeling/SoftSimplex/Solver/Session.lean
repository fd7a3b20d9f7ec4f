import SoftSimplex.Solver.Insert
import SoftSimplex.Solver.Remove

/-!
Edit sessions.

A session is opened with a list of wishes: variables that are to stay, and variables that values will
be suggested for. If one of them is refused nothing has happened. Sessions nest, and closing one
takes back what it registered.
-/

namespace SoftSimplex.Solver

variable {K : Type} [Scalar K]

/-- What a session is opened with. -/
inductive Wish (K : Type) where
  /-- A variable is to stay at a value, or where it is. -/
  | stay (v : Variable) (value : Option K) (priority : Option Literal)
  /-- Values will be suggested for a variable. -/
  | edit (v : Variable) (priority : Option Literal)

/-- The priority that was asked for, or the one of the settings. -/
def wishedPriority (asked : Option Literal) (default : Priority) : Step K (Solver K) Priority :=
  match asked with
  | none => return default
  | some literal =>
    match literal.priority? with
    | .ok p => return p
    | .error fault => Step.fail (.priority fault)

/-- Pose on the solver's own account that two expressions are equal. -/
def installEquation (left right : LinExpr K) (priority : Priority) :
    Step K (Solver K) (Constraint K × Markers K) := do
  let tag ← onSimplex Simplex.freshTag
  let c : Constraint K := { tag, left, comparator := .eq, right, priority }
  return (c, ← install c)

/-- Fulfil a wish for the session that is being opened. -/
def fulfil (session : Session K) : Wish K → Step K (Solver K) (Session K)
  | .stay v value asked => do
    let s ← Step.get
    if session.hasStay v || s.hasStay v then Step.fail (.stayExists v)
    else
      let target ← Step.ofExcept (Step.checked (Scalar.settled (value.getD (s.currentValue v))))
      let priority ← wishedPriority asked s.config.stayPriority
      let (c, markers) ← installEquation (.variable v) (.constant target) priority
      return { session with stays := session.stays ++ [(v, ⟨c, markers⟩)] }
  | .edit v asked => do
    let s ← Step.get
    if session.hasEdit v || s.hasEdit v then Step.fail (.editExists v)
    else
      let value := s.currentValue v
      let priority ← wishedPriority asked s.config.editPriority
      let (c, markers) ←
        installEquation (.add (LinExpr.neg (.variable v)) (.constant value)) (.constant 0) priority
      return { session with edits := session.edits ++ [(v, ⟨c, markers, value⟩)] }

/-- Fulfil wishes one after another. -/
def fulfilAll (session : Session K) : List (Wish K) → Step K (Solver K) (Session K)
  | [] => return session
  | wish :: rest => do
    fulfilAll (← fulfil session wish) rest

/-- Open an edit session inside the open ones. -/
def beginEdit (wishes : List (Wish K)) : Step K (Solver K) Unit := do
  let session ← (fulfilAll {} wishes).transaction
  Step.modify fun s =>
    ({ s with sessions := session :: s.sessions } : Solver K).forgetInfeasible.resetStays
  onSimplex Simplex.optimize
  onSimplex (Simplex.snapshot .editBegun)

/-- Close the innermost edit session and take back what it registered. -/
def endEdit : Step K (Solver K) Unit := do
  match (← Step.get).sessions with
  | [] => Step.fail .noSession
  | session :: outer =>
    Step.modify fun s => { s with sessions := outer }
    Step.forEach session.constraints uninstall
    Step.modify fun s => { s with needsRepair := false }
    onSimplex Simplex.optimize
    let _ ← readValues
    onSimplex (Simplex.snapshot .editEnded)

end SoftSimplex.Solver
