import Runbook.Catalog

/-!
# Pipelines

What a task reads and writes, what a pipeline does at any nesting level, and the check that every
input is set before it is needed.

* `check` replays the marks of a run over the tasks of the pipeline itself, without running them.
* `reads` and `writes` go down into embedded pipelines.
-/

namespace Runbook

namespace Task

/-- A task with nothing but a method. -/
def simple (m : MethodId) : Task :=
  ⟨m, [], [], [], none⟩

/-- The variables that the task reads: the fixed ones of its method, then its own. -/
def allInputs (c : Catalog) (t : Task) : List VariableId :=
  (c.methodAt t.method).fixedInputs ++ t.inputs

/-- The variables that the task writes: the fixed ones of its method, then its own. -/
def allOutputs (c : Catalog) (t : Task) : List VariableId :=
  (c.methodAt t.method).fixedOutputs ++ t.outputs

end Task

/-! ## Use of variables -/

mutual

/-- Whether the task, or one in its body, has a slot with `v` on the side that `slots` gives. -/
def Task.touches (slots : MethodId → List VariableId → List VariableId → List VariableId)
    (v : VariableId) : Task → Bool
  | ⟨m, _, os, is, none⟩ => (slots m os is).contains v
  | ⟨m, _, os, is, some p⟩ => (slots m os is).contains v || Pipeline.touches slots v p

/-- Whether one of the tasks has such a slot. -/
def Task.anyTouches (slots : MethodId → List VariableId → List VariableId → List VariableId)
    (v : VariableId) : List Task → Bool
  | [] => false
  | t :: ts => Task.touches slots v t || Task.anyTouches slots v ts

/-- Whether a task at any nesting level has such a slot. -/
def Pipeline.touches (slots : MethodId → List VariableId → List VariableId → List VariableId)
    (v : VariableId) : Pipeline → Bool
  | ⟨_, ts⟩ => Task.anyTouches slots v ts

end

namespace Pipeline

/-- Whether a task at any nesting level reads `v`. -/
def reads (c : Catalog) (p : Pipeline) (v : VariableId) : Bool :=
  p.touches (fun m _ inputs => (c.methodAt m).fixedInputs ++ inputs) v

/-- Whether a task at any nesting level writes `v`. -/
def writes (c : Catalog) (p : Pipeline) (v : VariableId) : Bool :=
  p.touches (fun m outputs _ => (c.methodAt m).fixedOutputs ++ outputs) v

/-! ## Edits -/

/-- `p` with one task more at the end. -/
def push (p : Pipeline) (t : Task) : Pipeline :=
  { p with tasks := p.tasks ++ [t] }

/-- `p` with the tasks of `q` at the end. -/
def append (p q : Pipeline) : Pipeline :=
  { p with tasks := p.tasks ++ q.tasks }

/-- The first `n` tasks. -/
def truncate (p : Pipeline) (n : Nat) : Pipeline :=
  { p with tasks := p.tasks.take n }

/-- Exactly `n` tasks: the first ones of `p`, then copies of `filler`. -/
def resize (p : Pipeline) (n : Nat) (filler : Task) : Pipeline :=
  { p with tasks := p.tasks.take n ++ List.replicate (n - p.tasks.length) filler }

/-- `p` under another name. -/
def rename (p : Pipeline) (name : String) : Pipeline :=
  { p with name }

end Pipeline

/-! ## The static check -/

/-- A task whose input has not been set. -/
structure MissingInput where
  method : String
  input : String
  task : Nat
  deriving Repr, DecidableEq

/-- The fault in words. -/
def MissingInput.message (e : MissingInput) : String :=
  s!"Method {e.method} (task {e.task}) needs input {e.input}, which has not been set"

/-- The first input of `t`, task number `i`, that is not set. -/
def Task.missingInput? (c : Catalog) (isSet : VariableId → Bool) (i : Nat) (t : Task) :
    Option MissingInput :=
  ((t.allInputs c).find? fun v => !isSet v).map fun v =>
    ⟨(c.methodAt t.method).name, (c.variableAt v).name, i⟩

/-- The first unset input of `ts`, counted from `i`, if the variables in `set` are set before. -/
def checkTasks (c : Catalog) (set : List VariableId) (i : Nat) :
    List Task → Except MissingInput Unit
  | [] => .ok ()
  | t :: ts =>
    match t.missingInput? c set.contains i with
    | some e => .error e
    | none => checkTasks c (t.allOutputs c ++ set) (i + 1) ts

/-- Whether each task finds its inputs set, if `set` are set at the start. Embedded pipelines are
not looked into. -/
def Pipeline.check (c : Catalog) (p : Pipeline) (set : List VariableId) :
    Except MissingInput Unit :=
  checkTasks c set 0 p.tasks

end Runbook
