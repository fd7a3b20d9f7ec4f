/-!
What the columns and rows of a tableau are named by.

A column is an unknown of the caller (`Variable`) or one that the solver made up (`Symbol`): a slack
or error column, a dummy, an artificial column, or one of the two objective rows. Columns are
compared by kind, then by name as code points, then by serial number. That order is total and tells
any two columns apart (`LawfulEqOrd`), and every choice of the solver between columns or rows takes
the least one in it.
-/

namespace SoftSimplex

open Std

/-- An unknown of the caller. Two variables of one name are told apart by their serial numbers. -/
structure Variable where
  name : String
  serial : Nat
  deriving DecidableEq, Repr

namespace Variable

/-- The name shown for a variable; one without a name shows its serial number. -/
def label (v : Variable) : String :=
  if v.name.isEmpty then s!"_v{v.serial}" else v.name

instance : Ord Variable :=
  ⟨compareLex (compareOn Variable.name) (compareOn Variable.serial)⟩

instance : TransOrd Variable :=
  inferInstanceAs (TransCmp (compareLex (compareOn Variable.name) (compareOn Variable.serial)))

theorem compare_eq_then (a b : Variable) :
    compare a b = (compare a.name b.name).then (compare a.serial b.serial) := rfl

instance : LawfulEqOrd Variable where
  eq_of_compare {a b} h := by
    rw [compare_eq_then] at h
    simp only [Ordering.then_eq_eq, LawfulEqOrd.compare_eq_iff_eq] at h
    cases a
    cases b
    simp_all

end Variable

/-- What a made-up column is for. -/
inductive SymbolKind where
  | slack
  | dummy
  | artificial
  | objective
  | artificialObjective
  deriving DecidableEq, Repr

/-- The place of a kind in the order of columns; variables come before all of them. -/
def SymbolKind.rank : SymbolKind → Nat
  | .slack => 1
  | .dummy => 2
  | .artificial => 3
  | .objective => 4
  | .artificialObjective => 5

/-- A column that the solver made up. -/
structure Symbol where
  kind : SymbolKind
  label : String
  serial : Nat
  deriving DecidableEq, Repr

/-- A column or row of a tableau. -/
inductive Column where
  | external (v : Variable)
  | symbol (s : Symbol)
  deriving DecidableEq, Repr

namespace Column

instance : Coe Variable Column := ⟨.external⟩

/-- The row of the objective. -/
def objective : Column := .symbol ⟨.objective, "_obj", 0⟩

/-- The row that the first phase minimises. -/
def artificialObjective : Column := .symbol ⟨.artificialObjective, "_a_obj", 1⟩

/-- The place of a column's kind in the order of columns. -/
def rank : Column → Nat
  | .external _ => 0
  | .symbol s => s.kind.rank

/-- The name that a column is ordered by. -/
def sortName : Column → String
  | .external v => v.name
  | .symbol s => s.label

/-- The number that tells columns of one kind and name apart. -/
def serial : Column → Nat
  | .external v => v.serial
  | .symbol s => s.serial

/-- The name that a column is shown by. -/
def label : Column → String
  | .external v => v.label
  | .symbol s => s.label

/-- Unknowns of the caller, which may take any sign. -/
def isExternal : Column → Bool
  | .external _ => true
  | .symbol _ => false

/-- Columns that must stay at zero and only mark an equation. -/
def isDummy : Column → Bool
  | .external _ => false
  | .symbol s => s.kind = .dummy

/-- Columns that may enter and leave the basis. -/
def isPivotable : Column → Bool
  | .external _ => false
  | .symbol s => s.kind = .slack || s.kind = .artificial

/-- Columns that may not become negative. -/
def isRestricted : Column → Bool
  | .external _ => false
  | .symbol s => s.kind = .slack || s.kind = .dummy || s.kind = .artificial

/-- The two rows that are minimised. -/
def isObjective : Column → Bool
  | .external _ => false
  | .symbol s => s.kind = .objective || s.kind = .artificialObjective

/-- Slack and error columns. -/
def isSlack : Column → Bool
  | .external _ => false
  | .symbol s => s.kind = .slack

instance : Ord Column :=
  ⟨compareLex (compareOn rank) (compareLex (compareOn sortName) (compareOn serial))⟩

instance : TransOrd Column :=
  inferInstanceAs
    (TransCmp (compareLex (compareOn rank) (compareLex (compareOn sortName) (compareOn serial))))

theorem compare_eq_then (a b : Column) :
    compare a b = (compare a.rank b.rank).then
      ((compare a.sortName b.sortName).then (compare a.serial b.serial)) := rfl

instance : LawfulEqOrd Column where
  eq_of_compare {a b} h := by
    rw [compare_eq_then] at h
    simp only [Ordering.then_eq_eq, LawfulEqOrd.compare_eq_iff_eq] at h
    obtain ⟨ranks, names, serials⟩ := h
    cases a with
    | external v =>
      cases b with
      | external w =>
        cases v
        cases w
        simp_all [sortName, serial]
      | symbol s =>
        cases s with
        | mk kind label serial => cases kind <;> simp [rank, SymbolKind.rank] at ranks
    | symbol s =>
      cases b with
      | external w =>
        cases s with
        | mk kind label serial => cases kind <;> simp [rank, SymbolKind.rank] at ranks
      | symbol t =>
        obtain ⟨kind, label, number⟩ := s
        obtain ⟨kind', label', number'⟩ := t
        have kinds : kind = kind' := by
          cases kind <;> cases kind' <;> simp_all [rank, SymbolKind.rank]
        simp_all [sortName, serial]

end Column

end SoftSimplex
