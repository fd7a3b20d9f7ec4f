/-!
Sums as they are written.
-/

namespace SoftSimplex.Text

/-- Texts joined by plus signs. Adding what begins with a minus sign is written as subtracting it,
and the whole text is looked through for that, names included. -/
def sum (summands : List String) : String :=
  (" + ".intercalate summands).replace "+ -" "- "

end SoftSimplex.Text
