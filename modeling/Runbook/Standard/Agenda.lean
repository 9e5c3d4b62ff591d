import Runbook.Run.Action

/-!
# Agendas

An agenda is a pipeline that is stored in a variable, to be run later. These standard methods store,
extend, run and repeat agendas, and end a run.
-/

namespace Runbook.Standard

/-- The tasks in the body of a call. -/
def bodyTasks (c : Call) : List Task :=
  (c.task.embedded.map Pipeline.tasks).getD []

/-- Stores tasks as an agenda, which is called like its variable. -/
def storeAgenda (c : Call) (tasks : List Task) : Action Unit := do
  let target ← c.outputId 0
  c.output 0 (.pipeline ⟨(c.catalog.variableAt target).name, tasks⟩)

/-- Stores the body. -/
def setAgenda (c : Call) : Action Unit :=
  storeAgenda c (bodyTasks c)

/-- Stores an agenda with the body at its end. -/
def appendAgenda (c : Call) : Action Unit := do
  let agenda ← c.pipelineInput 0
  storeAgenda c (agenda.tasks ++ bodyTasks c)

/-- Runs an agenda on the workspace. -/
def executeAgenda (c : Call) : Action Unit := do
  .execute (← c.pipelineInput 0) .shared

/-- The variables called so; the first unknown name is refused. -/
def keptVariables (c : Catalog) : List String → Action (List VariableId)
  | [] => .done []
  | name :: names =>
    match c.findVariable? name with
    | none => .refuse (.unknownKeep name)
    | some v => do
      let vs ← keptVariables c names
      return v :: vs

/-- Runs an agenda on a copy of the workspace and keeps the listed variables. -/
def executeAgendaExclusive (c : Call) : Action Unit := do
  let agenda ← c.pipelineInput 0
  let names ← .contents (← c.keyword 0).asStringArray
  let keep ← keptVariables c.catalog names
  .execute agenda (.isolated keep)

/-- How many of `start`, `start + step`, `start + 2 * step`, … come before `stop` is passed. -/
def loopCount (start stop step : Int) : Nat :=
  if 0 < step then ((stop - start).fdiv step + 1).toNat
  else if step < 0 then ((start - stop).fdiv (-step) + 1).toNat
  else 0

/-- Runs the agenda `n` times, for the indices `i`, `i + step`, …; the mode is that of the first
time, the other times are silent. -/
def loop (index : VariableId) (agenda : Pipeline) (step : Int) :
    Nat → Mode → Int → Action Unit
  | 0, _, _ => .done ()
  | n + 1, mode, i =>
    .write index (.index (Int64.ofInt i)) <|
      .run agenda mode fun
        | .ok () => loop index agenda step n .muted (i + step)
        | .error e => .fail (.nested e)

/-- Runs the loop agenda once for each index from start to stop. The agenda and the indices are
settled before the first time; all indices lie between start and stop, so none leaves the range of
indices. -/
def forLoop (c : Call) : Action Unit := do
  let agenda ← c.pipelineInput 0
  let start ← c.indexKeyword 0
  let stop ← c.indexKeyword 1
  let step ← c.indexKeyword 2
  if step = 0 then .refuse .loopStepZero
  else
    let index ← c.outputId 0
    let count := loopCount start.toInt stop.toInt step.toInt
    loop index agenda step.toInt count .shared start.toInt

/-- Fails with the given message. -/
def raise (c : Call) : Action Unit := do
  let message ← .contents (← c.keyword 0).asString
  .fault (.raised message)

end Runbook.Standard
