import Runbook.Value
import Runbook.Decimal.Notation

/-!
# Value texts

How a value is written: as the literal that control files use for it. A pipeline has no literal and
is shown by its name and length.
-/

namespace Runbook.Value

/-- A text in double quotes, as it stands. -/
def quoted (s : String) : String :=
  "\"" ++ s ++ "\""

/-- Items in square brackets, separated by comma and space. -/
def bracketed (items : List String) : String :=
  "[" ++ ", ".intercalate items ++ "]"

/-- A list of numbers. -/
def numbersText (xs : List Float) : String :=
  bracketed (xs.map Double.valueText)

/-- The value as a literal. -/
def text : Value → String
  | index i => toString i.toInt
  | numeric x => Double.valueText x
  | string s => quoted s
  | vector xs => numbersText xs
  | indexArray is => bracketed (is.map fun i => toString i.toInt)
  | stringArray ss => bracketed (ss.map quoted)
  | matrix m => bracketed (m.toRows.map numbersText)
  | pipeline p => s!"<pipeline {p.name}: {p.tasks.length} tasks>"

end Runbook.Value
