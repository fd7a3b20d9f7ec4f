import SoftSimplex.Column
import SoftSimplex.Text.Quoted

/-!
How columns are described, and how the kinds of made-up columns are numbered.
-/

namespace SoftSimplex

/-- The name of a kind of made-up columns. -/
def SymbolKind.text : SymbolKind → String
  | .slack => "SLACK"
  | .dummy => "DUMMY"
  | .artificial => "ARTIFICIAL"
  | .objective => "OBJECTIVE"
  | .artificialObjective => "ARTIFICIAL_OBJECTIVE"

/-- The kind of a rank; rank zero belongs to variables, which are not made up. -/
def SymbolKind.ofRank? : Nat → Option SymbolKind
  | 1 => some .slack
  | 2 => some .dummy
  | 3 => some .artificial
  | 4 => some .objective
  | 5 => some .artificialObjective
  | _ => none

@[simp] theorem SymbolKind.ofRank?_rank (kind : SymbolKind) : ofRank? kind.rank = some kind := by
  cases kind <;> rfl

/-- Why no symbol is made for the rank of variables. -/
def SymbolKind.noneExternal : String := "External variables are represented by Variable"

/-- A description of a column that says what it is. -/
def Column.described : Column → String
  | .external v => s!"Variable({v.label})"
  | .symbol s => s!"Symbol({s.kind.text}, {Text.quoted s.label})"

end SoftSimplex
