import Runbook.Run.Action

/-!
# Grids

The standard methods that fill a vector with equally spaced values. Every value is computed from the
start, so that rounding does not add up.
-/

namespace Runbook.Standard

/-- `start + i * step`, in doubles. -/
def gridPoint (start step : Float) (i : Nat) : Float :=
  start + Double.ofInt i * step

/-- The first `n` points of the grid. -/
def gridPoints (start step : Float) (n : Nat) : List Float :=
  (List.range n).map (gridPoint start step)

/-- Stores the values from `start` in increments of `step` that do not pass `stop`. -/
def linearSpace (c : Call) : Action Unit := do
  let start ← c.numericKeyword 0
  let stop ← c.numericKeyword 1
  let step ← c.numericKeyword 2
  if step == 0 then .refuse .gridStepZero
  else
    match Double.floor? ((stop - start) / step) with
    | none => .refuse (.gridUnbounded start stop step)
    | some steps =>
      if steps < 0 then .refuse (.gridAway start stop step)
      else if maxGridLength ≤ steps then .refuse (.gridTooLong start stop step)
      else c.output 0 (.vector (gridPoints start step (steps.toNat + 1)))

/-- `n` equally spaced values; the last one is `stop` itself, whatever rounding makes of it. -/
def spacedPoints (start stop : Float) (n : Nat) : List Float :=
  let step := (stop - start) / Double.ofInt (n - 1 : Nat)
  gridPoints start step (n - 1) ++ [stop]

/-- Stores `nelem` equally spaced values, `start` and `stop` among them. -/
def countedSpace (c : Call) : Action Unit := do
  let nelem ← c.indexKeyword 0
  let start ← c.numericKeyword 1
  let stop ← c.numericKeyword 2
  if nelem < 2 then .refuse (.gridTooFew nelem)
  else if maxGridLength < nelem.toInt then .refuse (.gridTooMany nelem)
  else c.output 0 (.vector (spacedPoints start stop nelem.toNatClampNeg))

end Runbook.Standard
