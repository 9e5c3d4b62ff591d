import Runbook.Run.Action

/-!
# Assignment

The standard methods that set a variable from their keywords or from another variable.
-/

namespace Runbook.Standard

/-- Stores the keyword in the output. -/
def setKeyword (c : Call) : Action Unit := do
  c.output 0 (← c.keyword 0)

/-- Stores a matrix: the values row by row, `ncols` to a row. -/
def setMatrix (c : Call) : Action Unit := do
  let values ← .contents (← c.keyword 0).asVector
  let ncols ← c.indexKeyword 1
  if ncols ≤ 0 then .refuse (.matrixColumns ncols)
  else
    let cols := ncols.toNatClampNeg
    if values.length % cols ≠ 0 then .refuse (.matrixRows values.length ncols)
    else
      match Matrix.ofEntries (values.length / cols) cols values with
      | .ok m => c.output 0 (.matrix m)
      | .error e => .fault (.matrix e)

/-- Stores the input in the output, which must be of the same group. -/
def copy (c : Call) : Action Unit := do
  let source ← c.inputId 0
  let value ← .get source
  let target := c.catalog.variableAt (← c.outputId 0)
  if value.group = target.group then c.output 0 value
  else
    .refuse (.copyGroup (c.catalog.variableAt source).name value.group target.name target.group)

/-- Leaves the output as it is; that it counts as set afterwards is true of every output. -/
def touch (_ : Call) : Action Unit := .done ()

end Runbook.Standard
