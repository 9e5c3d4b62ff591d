import Runbook.Run.Action

/-!
# Printing

The standard method that reports the value of a variable. A matrix is printed row by row with plain
numbers, every other value as a literal.
-/

namespace Runbook.Standard

/-- A value as it is printed. -/
def printedText : Value → String
  | .matrix m =>
    s!"{m.rows}x{m.cols} matrix" ++
      String.join (m.toRows.map fun row => "\n  " ++ " ".intercalate (row.map Double.plainText))
  | v => v.text

/-- Level 0 is info, 1 debug, and from 2 on trace. -/
def printLevel (level : Int64) : Level :=
  if level = 0 then .info else if level = 1 then .debug else .trace

/-- Reports name and value of the input. -/
def print (c : Call) : Action Unit := do
  let level ← c.indexKeyword 0
  if level < 0 then .refuse (.printLevel level)
  else
    let source ← c.inputId 0
    let value ← .get source
    .report (.printed (printLevel level) (c.catalog.variableAt source).name (printedText value))
      (.done ())

end Runbook.Standard
