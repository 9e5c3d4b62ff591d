import Runbook.Run.Action

/-!
# Arithmetic

The standard methods on numbers and vectors. Indices are 64-bit integers and a sum outside their
range is refused; all else is double arithmetic.
-/

namespace Runbook.Standard

/-- The sum, if it is in the range of indices. -/
def addIndices? (a b : Int64) : Option Int64 :=
  let sum := a.toInt + b.toInt
  if Int64.minValue.toInt ≤ sum ∧ sum ≤ Int64.maxValue.toInt then some (Int64.ofInt sum)
  else none

/-- Adds the keyword to an index. -/
def addToIndex (c : Call) : Action Unit := do
  let a ← .contents (← c.input 0).asIndex
  let b ← c.indexKeyword 0
  match addIndices? a b with
  | some sum => c.output 0 (.index sum)
  | none => .refuse (.indexOverflow a b)

/-- Combines a number and the keyword. -/
def onNumeric (f : Float → Float → Float) (c : Call) : Action Unit := do
  let a ← .contents (← c.input 0).asNumeric
  let b ← c.numericKeyword 0
  c.output 0 (.numeric (f a b))

/-- Combines each element of a vector and the keyword. -/
def onVector (f : Float → Float → Float) (c : Call) : Action Unit := do
  let b ← c.numericKeyword 0
  let xs ← .contents (← c.input 0).asVector
  c.output 0 (.vector (xs.map fun x => f x b))

/-- The sum from the first element to the last. Minus zero is the sum of nothing: it is neutral
also to itself. -/
def total (xs : List Float) : Float :=
  xs.foldl (· + ·) (-0.0)

/-- Adds up a vector. -/
def sumVector (c : Call) : Action Unit := do
  let xs ← .contents (← c.input 0).asVector
  c.output 0 (.numeric (total xs))

/-- A vector with one element more at the end. Input and output may be the same variable. -/
def extendVector (c : Call) : Action Unit := do
  let xs ← .contents (← c.input 0).asVector
  let x ← .contents (← c.input 1).asNumeric
  c.output 0 (.vector (xs ++ [x]))

end Runbook.Standard
