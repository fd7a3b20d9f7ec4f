import SoftSimplex.Tableau
import SoftSimplex.Row.Text

/-!
How tableaux are written: the columns of the index in one line, and a line for each row.
-/

namespace SoftSimplex.Tableau

/-- A text filled up with blanks on its left. -/
def rightAligned (width : Nat) (text : String) : String :=
  String.ofList (List.replicate (width - text.length) ' ') ++ text

/-- The text of a tableau. The labels of rows end in one column, unless they are too long. -/
def text (t : Tableau Float) : String :=
  let columns := ", ".intercalate (t.index.keys.map Column.label)
  let rows := t.rows.toList.map fun entry => rightAligned 10 entry.1.label ++ ": " ++ entry.2.text
  "\n".intercalate (("[Tableau] Columns: [" ++ columns ++ "]") :: "  Rows:" :: rows)

end SoftSimplex.Tableau
