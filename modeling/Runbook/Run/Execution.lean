import Runbook.Run.Action

/-!
# Execution

A pipeline runs task by task. Each task is announced, its inputs must be set, its method is called,
and after a success its outputs are marked. The first failure ends the run and nothing is rolled
back. A method may run pipelines one level deeper, up to a limit.

The levels below a pipeline are handed down as a number, so the run of any pipeline ends, also of
one that executes itself.

* `runTasks_append`: a list of tasks runs part by part.
-/

namespace Runbook

/-- Catalog and implementations. -/
structure Library where
  catalog : Catalog
  natives : List Native
  length_eq : natives.length = catalog.methods.length

/-- The implementation of `m`; an unknown method does nothing. -/
def Library.native (lib : Library) (m : MethodId) : Native :=
  lib.natives[m.index]?.getD fun _ => .done ()

/-- What a run changes: the workspace, and the events so far. -/
structure State where
  workspace : Workspace
  log : Array Event

namespace State

/-- One event more. -/
def report (s : State) (e : Event) : State :=
  { s with log := s.log.push e }

/-- The workspace changed by `f`. -/
def update (s : State) (f : Workspace → Workspace) : State :=
  { s with workspace := f s.workspace }

end State

/-- A way to run pipelines, silently or not. -/
abbrev Runner := Bool → Pipeline → State → Except RunError Unit × State

/-- Runs a pipeline as `mode` says. What an isolated run sets is lost when it fails, what it reports
is not. -/
def Mode.apply (below : Runner) (silent : Bool) (p : Pipeline) (s : State) :
    Mode → Except RunError Unit × State
  | .shared => below silent p s
  | .muted => below true p s
  | .isolated keep =>
    match below silent p s with
    | (.ok (), after) => (.ok (), ⟨s.workspace.mergeFrom after.workspace keep, after.log⟩)
    | (.error e, after) => (.error e, ⟨s.workspace, after.log⟩)

/-- Takes the steps of an action. Pipelines are run by `below`. -/
def Action.perform {α : Type} (below : Runner) (silent : Bool) :
    Action α → State → Except Failure α × State
  | .done a, s => (.ok a, s)
  | .fail f, s => (.error f, s)
  | .read v next, s => (next (s.workspace.value v)).perform below silent s
  | .write v x next, s => next.perform below silent (s.update (·.write v x))
  | .put v x next, s => next.perform below silent (s.update (·.put v x))
  | .mark v next, s => next.perform below silent (s.update (·.mark v))
  | .inspect next, s => (next s.workspace).perform below silent s
  | .report e next, s => next.perform below silent (s.report e)
  | .run p mode next, s =>
    match mode.apply below silent p s with
    | (r, after) => (next r).perform below silent after

/-- Runs task number `i` of a pipeline at nesting level `depth`. -/
def runTask (lib : Library) (below : Runner) (depth : Nat) (silent : Bool) (i : Nat) (t : Task)
    (s : State) : Except RunError Unit × State :=
  let method := lib.catalog.methodAt t.method
  let announced := s.report (.announced method.name depth silent)
  match t.missingInput? lib.catalog announced.workspace.isOccupied i with
  | some e => (.error (.missingInput e), announced)
  | none =>
    match (lib.native t.method ⟨lib.catalog, t, depth, silent⟩).perform below silent announced with
    | (.ok (), after) => (.ok (), after.update (·.markAll (t.allOutputs lib.catalog)))
    | (.error f, after) => (.error (f.report method.name i), after)

/-- Runs tasks that are counted from `i`. -/
def runTasks (lib : Library) (below : Runner) (depth : Nat) (silent : Bool) :
    Nat → List Task → State → Except RunError Unit × State
  | _, [], s => (.ok (), s)
  | i, t :: ts, s =>
    match runTask lib below depth silent i t s with
    | (.ok (), after) => runTasks lib below depth silent (i + 1) ts after
    | (.error e, after) => (.error e, after)

/-- Runs a pipeline with room for `room` nesting levels from its own on; `limit` is the deepest one,
counted from zero. Without room the pipeline is not entered. -/
def execute (lib : Library) (limit : Nat) : Nat → Runner
  | 0, _, p, s => (.error (.depthExceeded p.name limit), s)
  | room + 1, silent, p, s =>
    let depth := limit - room
    let entered := s.report (.entered p.name depth p.tasks.length)
    match runTasks lib (execute lib limit room) depth silent 0 p.tasks entered with
    | (.ok (), after) => (.ok (), after.report (.exited p.name depth))
    | (.error e, after) => (.error e, after)

/-- The deepest nesting level, unless another is asked for. -/
def defaultMaxDepth : Nat := 64

/-- Runs a pipeline at the outermost level. -/
def Library.run (lib : Library) (maxDepth : Nat) (silent : Bool) (p : Pipeline) (w : Workspace) :
    Except RunError Unit × State :=
  execute lib maxDepth (maxDepth + 1) silent p ⟨w, #[]⟩

/-! ## Running in sequence -/

theorem runTasks_append (lib : Library) (below : Runner) (depth : Nat) (silent : Bool) (i : Nat)
    (ts us : List Task) (s : State) :
    runTasks lib below depth silent i (ts ++ us) s =
      match runTasks lib below depth silent i ts s with
      | (.ok (), after) => runTasks lib below depth silent (i + ts.length) us after
      | (.error e, after) => (.error e, after) := by
  induction ts generalizing i s with
  | nil => rfl
  | cons t ts ih =>
    rw [List.cons_append, runTasks, runTasks]
    rcases runTask lib below depth silent i t s with ⟨_ | _, after⟩
    · rfl
    · simp only [ih, List.length_cons]
      rw [Nat.add_assoc, Nat.add_comm 1]

end Runbook
