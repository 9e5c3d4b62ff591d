import Runbook.Run.Fault
import Runbook.Workspace
import Runbook.Report.Event

/-!
# Actions

What a method does, as a tree of the steps it may take: reading, writing and marking variables,
reporting, and running pipelines one level deeper. A method reaches the workspace in no other way,
so a statement about every step is a statement about every method.

An action makes no step by itself; `Action.perform` says what each step does.

* `andThen_done`, `andThen_assoc`: actions are put together as in every monad.
-/

namespace Runbook

/-- How a method runs a pipeline. -/
inductive Mode where
  /-- On the workspace of the method. -/
  | shared
  /-- Likewise, and silently. -/
  | muted
  /-- On a copy of the workspace; of what a successful run sets there, the variables in `keep` are
  copied back. -/
  | isolated (keep : List VariableId)
  deriving Repr, DecidableEq

/-- The steps of a method that yields an `α`. -/
inductive Action (α : Type) where
  | done (a : α)
  | fail (f : Failure)
  /-- Looks at the value of a variable. -/
  | read (v : VariableId) (next : Value → Action α)
  /-- Sets a variable. -/
  | write (v : VariableId) (x : Value) (next : Action α)
  /-- Changes a value and leaves the variable's mark alone. -/
  | put (v : VariableId) (x : Value) (next : Action α)
  /-- Marks a variable as set. -/
  | mark (v : VariableId) (next : Action α)
  /-- Looks at the whole workspace. -/
  | inspect (next : Workspace → Action α)
  | report (e : Event) (next : Action α)
  /-- Runs a pipeline one level deeper; a failure is for the method to handle. -/
  | run (p : Pipeline) (mode : Mode) (next : Except RunError Unit → Action α)

namespace Action

variable {α β : Type}

/-- The steps of `a`, then those of `f`. -/
def andThen (f : α → Action β) : Action α → Action β
  | done a => f a
  | fail e => fail e
  | read v next => read v fun x => (next x).andThen f
  | write v x next => write v x (next.andThen f)
  | put v x next => put v x (next.andThen f)
  | mark v next => mark v (next.andThen f)
  | inspect next => inspect fun w => (next w).andThen f
  | report e next => report e (next.andThen f)
  | run p mode next => run p mode fun r => (next r).andThen f

theorem andThen_done (a : Action α) : a.andThen done = a := by
  induction a with
  | done | fail => rfl
  | read v next ih | inspect next ih | run p mode next ih => simp [andThen, ih]
  | write v x next ih | put v x next ih | mark v next ih | report e next ih => simp [andThen, ih]

theorem andThen_assoc {γ : Type} (a : Action α) (f : α → Action β) (g : β → Action γ) :
    (a.andThen f).andThen g = a.andThen fun x => (f x).andThen g := by
  induction a with
  | done | fail => rfl
  | read v next ih | inspect next ih | run p mode next ih => simp [andThen, ih]
  | write v x next ih | put v x next ih | mark v next ih | report e next ih => simp [andThen, ih]

instance : Monad Action where
  pure := done
  bind a f := a.andThen f

instance : LawfulMonad Action :=
  .mk' Action andThen_done (fun _ _ => rfl) andThen_assoc

@[simp] theorem pure_eq (a : α) : (pure a : Action α) = done a := rfl

@[simp] theorem bind_eq (a : Action α) (f : α → Action β) : a >>= f = a.andThen f := rfl

/-! ## Single steps -/

/-- Fails for a fault of its own. -/
def fault (f : Fault) : Action α := fail (.ofFault f)

/-- Fails for an argument that is no use. -/
def refuse (f : ArgumentFault) : Action α := fault (.argument f)

/-- The value of `v`. -/
def get (v : VariableId) : Action Value := read v done

/-- Sets `v` to `x`. -/
def set (v : VariableId) (x : Value) : Action Unit := write v x (done ())

/-- The contents of a value, if it is of the right group. -/
def contents (r : Except GroupMismatch α) : Action α :=
  match r with
  | .ok a => done a
  | .error e => fault (.wrongGroup e)

/-- Passes the failure of a run on. -/
def passOn : Except RunError Unit → Action Unit
  | .ok () => done ()
  | .error e => fail (.nested e)

/-- Runs `p` and fails if that fails. -/
def execute (p : Pipeline) (mode : Mode) : Action Unit := run p mode passOn

end Action

/-! ## What a method is told -/

/-- The task that a method is called for, and where. -/
structure Call where
  catalog : Catalog
  task : Task
  depth : Nat
  silent : Bool

/-- The implementation of a method. -/
abbrev Native := Call → Action Unit

namespace Call

/-- The declaration of the called method. -/
def method (c : Call) : Method := c.catalog.methodAt c.task.method

/-- The value of keyword number `i`. -/
def keyword (c : Call) (i : Nat) : Action Value :=
  match c.task.keywords[i]? with
  | some v => .done v
  | none => .fault (.noKeyword c.method.name i)

/-- Input number `i`, the fixed ones first. -/
def inputId (c : Call) (i : Nat) : Action VariableId :=
  match (c.task.allInputs c.catalog)[i]? with
  | some v => .done v
  | none => .fault (.noInput c.method.name i)

/-- The value of input number `i`. -/
def input (c : Call) (i : Nat) : Action Value := do
  .get (← c.inputId i)

/-- Output number `i`, the fixed ones first. -/
def outputId (c : Call) (i : Nat) : Action VariableId :=
  match (c.task.allOutputs c.catalog)[i]? with
  | some v => .done v
  | none => .fault (.noOutput c.method.name i)

/-- Stores `x` in output number `i`, whose group must be that of `x`. -/
def output (c : Call) (i : Nat) (x : Value) : Action Unit := do
  let v ← c.outputId i
  let target := c.catalog.variableAt v
  if x.group = target.group then .set v x
  else .fault (.notStorable x.group target.name target.group)

/-- The index in keyword number `i`. -/
def indexKeyword (c : Call) (i : Nat) : Action Int64 := do
  .contents (← c.keyword i).asIndex

/-- The number in keyword number `i`. -/
def numericKeyword (c : Call) (i : Nat) : Action Float := do
  .contents (← c.keyword i).asNumeric

/-- The pipeline in input number `i`. -/
def pipelineInput (c : Call) (i : Nat) : Action Pipeline := do
  .contents (← c.input i).asPipeline

/-- Runs the pipeline in the task's body. -/
def runEmbedded (c : Call) : Action Unit :=
  match c.task.embedded with
  | some p => .execute p .shared
  | none => .fault (.noEmbedded c.method.name)

end Call
end Runbook
