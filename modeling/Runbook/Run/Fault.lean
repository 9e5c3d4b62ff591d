import Runbook.Pipeline
import Runbook.Decimal.Notation

/-!
# Faults of a run

Why a method fails and why a run fails. A method's fault is a cause with the contexts added on its
way up, the outermost first. A failed run below a method is such a cause too, and it is what the
run above reports: only a fault of the method's own becomes a failure of its task.

* `Failure.report_nested`: a failed run is reported unchanged, whatever contexts it has.
-/

namespace Runbook

/-- The longest vector that the grid methods build. -/
def maxGridLength : Nat := 16777216

/-- An argument that is of the right group and still no use. -/
inductive ArgumentFault where
  | matrixColumns (ncols : Int64)
  | matrixRows (values : Nat) (ncols : Int64)
  | gridStepZero
  | gridUnbounded (start stop step : Float)
  | gridAway (start stop step : Float)
  | gridTooLong (start stop step : Float)
  | gridTooFew (nelem : Int64)
  | gridTooMany (nelem : Int64)
  | copyGroup (source : String) (group : Group) (target : String) (targetGroup : Group)
  | indexOverflow (a b : Int64)
  | unknownKeep (name : String)
  | loopStepZero
  | printLevel (level : Int64)

/-- The fault in words. -/
def ArgumentFault.message : ArgumentFault → String
  | matrixColumns ncols => s!"MatrixSet: ncols must be positive, got {ncols.toInt}"
  | matrixRows values ncols =>
    s!"MatrixSet: {values} values do not fill rows of {ncols.toInt} columns"
  | gridStepZero => "VectorLinSpace: step must not be zero"
  | gridUnbounded start stop step =>
    s!"VectorLinSpace: cannot step from {Double.plainText start} to {Double.plainText stop} " ++
      s!"by {Double.plainText step}"
  | gridAway start stop step =>
    s!"VectorLinSpace: step {Double.plainText step} never reaches from " ++
      s!"{Double.plainText start} to {Double.plainText stop}"
  | gridTooLong start stop step =>
    s!"VectorLinSpace: grid from {Double.plainText start} to {Double.plainText stop} " ++
      s!"by {Double.plainText step} exceeds {maxGridLength} elements"
  | gridTooFew nelem => s!"VectorNLinSpace: nelem must be at least 2, got {nelem.toInt}"
  | gridTooMany nelem => s!"VectorNLinSpace: nelem {nelem.toInt} exceeds {maxGridLength}"
  | copyGroup source group target targetGroup =>
    s!"Copy: cannot copy {source} ({group}) to {target} ({targetGroup})"
  | indexOverflow a b => s!"IndexAdd: {a.toInt} + {b.toInt} overflows"
  | unknownKeep name => s!"AgendaExecuteExclusive: unknown variable '{name}' in keep"
  | loopStepZero => "ForLoop: step must not be zero"
  | printLevel level => s!"Print: level must be non-negative, got {level.toInt}"

/-- Why a method fails by itself. -/
inductive Fault where
  | wrongGroup (e : GroupMismatch)
  | noKeyword (method : String) (i : Nat)
  | noInput (method : String) (i : Nat)
  | noOutput (method : String) (i : Nat)
  | noEmbedded (method : String)
  /-- A value of another group than the variable it is to be stored in. -/
  | notStorable (value : Group) (target : String) (group : Group)
  | matrix (e : MatrixFault)
  | argument (e : ArgumentFault)
  /-- A failure on request. -/
  | raised (message : String)

/-- The fault in words. -/
def Fault.message : Fault → String
  | wrongGroup e => e.message
  | noKeyword method i => s!"{method} has no keyword #{i}"
  | noInput method i => s!"{method} has no input #{i}"
  | noOutput method i => s!"{method} has no output #{i}"
  | noEmbedded method => s!"{method} carries no embedded pipeline"
  | notStorable value target group => s!"cannot store a {value} value in {target} ({group})"
  | matrix e => e.message
  | argument e => e.message
  | raised message => message

/-- Why a run fails. -/
inductive RunError where
  | missingInput (e : MissingInput)
  /-- Task number `task` failed, for a fault of its method with the contexts added to it. -/
  | methodFailed (method : String) (task : Nat) (contexts : List String) (fault : Fault)
  | depthExceeded (pipeline : String) (limit : Nat)

namespace RunError

/-- Contexts and cause of a failed method. -/
def causes : RunError → List String
  | methodFailed _ _ contexts fault => contexts ++ [fault.message]
  | _ => []

/-- The error in words. -/
def message : RunError → String
  | missingInput e => e.message
  | methodFailed method task contexts fault =>
    s!"Method {method} (task {task}) failed: " ++
      ": ".intercalate (contexts ++ [fault.message])
  | depthExceeded pipeline limit =>
    s!"Pipeline {pipeline} exceeds the maximum nesting depth ({limit})"

/-- The error and what caused it, the outermost first. -/
def chain (e : RunError) : List String :=
  e.message :: e.causes

/-- The method of the failed task. -/
def method? : RunError → Option String
  | missingInput e => some e.method
  | methodFailed method _ _ _ => some method
  | depthExceeded .. => none

/-- The position of the failed task in the pipeline that holds it. -/
def task? : RunError → Option Nat
  | missingInput e => some e.task
  | methodFailed _ task _ _ => some task
  | depthExceeded .. => none

end RunError

/-- What lies at the bottom of a failing method. -/
inductive Cause where
  | fault (f : Fault)
  | run (e : RunError)

/-- A failing method: the cause under its contexts. -/
structure Failure where
  contexts : List String
  cause : Cause

namespace Failure

/-- A fault without context. -/
def ofFault (f : Fault) : Failure := ⟨[], .fault f⟩

/-- A failed run without context. -/
def nested (e : RunError) : Failure := ⟨[], .run e⟩

/-- The failure under one more context. -/
def inContext (context : String) (f : Failure) : Failure :=
  { f with contexts := context :: f.contexts }

/-- Contexts and causes, the outermost first. -/
def chain (f : Failure) : List String :=
  f.contexts ++
    match f.cause with
    | .fault fault => [fault.message]
    | .run e => e.chain

/-- What a run reports if task number `task` fails so. -/
def report (f : Failure) (method : String) (task : Nat) : RunError :=
  match f.cause with
  | .run e => e
  | .fault fault => .methodFailed method task f.contexts fault

theorem report_nested {f : Failure} {e : RunError} (h : f.cause = .run e) (method : String)
    (task : Nat) : f.report method task = e := by
  rw [report, h]

end Failure
end Runbook
