import Runbook.Pipeline.Text
import Runbook.Report.Level

/-!
# Events

What happens while control files are bound and run, in the order in which it happens, and the report
line that each event becomes: a level, a target, a message and named fields.

Tasks are announced at info level, or at debug level in a silent run.
-/

namespace Runbook

/-- Something that happened. -/
inductive Event where
  | bound (pipeline : String) (tasks : Nat)
  | filesBound (tasks files : Nat)
  | consistent
  | entered (pipeline : String) (depth tasks : Nat)
  | announced (method : String) (depth : Nat) (silent : Bool)
  | exited (pipeline : String) (depth : Nat)
  | printed (level : Level) (name value : String)
  /-- A remark of a method's own. -/
  | note (remark : String)
  | finished
  | fatal (message : String)
  deriving Repr, DecidableEq

/-- What a field of a report line holds. -/
inductive FieldValue where
  | text (s : String)
  | count (n : Nat)
  deriving Repr, DecidableEq

/-- A report line, taken apart. -/
structure Record where
  level : Level
  target : String
  message : String
  fields : List (String × FieldValue)
  deriving Repr, DecidableEq

namespace Target

/-- The program as a whole. -/
def program : String := "pipex"

/-- The binding of control files. -/
def bind : String := "pipex::bind"

/-- The execution of pipelines. -/
def execution : String := "pipex::exec"

/-- Values printed by tasks. -/
def print : String := "pipex::print"

/-- Errors that the user sees anyway; they go to the report file only. -/
def fatal : String := "pipex::fatal"

/-- Remarks of methods. -/
def note : String := "pipex::note"

end Target

/-- The report line of an event. -/
def Event.record : Event → Record
  | bound pipeline tasks =>
    ⟨.debug, Target.bind, "bound", [("pipeline", .text pipeline), ("tasks", .count tasks)]⟩
  | filesBound tasks files =>
    ⟨.info, Target.program, s!"Bound {tasks} task(s) from {files} control file(s)", []⟩
  | consistent => ⟨.info, Target.program, "Control files are consistent", []⟩
  | entered pipeline depth tasks =>
    ⟨.trace, Target.execution, "pipeline.enter",
      [("pipeline", .text pipeline), ("depth", .count depth), ("tasks", .count tasks)]⟩
  | announced method depth silent =>
    ⟨if silent then .debug else .info, Target.execution, s!"{indent depth}- {method}", []⟩
  | exited pipeline depth =>
    ⟨.trace, Target.execution, "pipeline.exit",
      [("pipeline", .text pipeline), ("depth", .count depth)]⟩
  | printed level name value => ⟨level, Target.print, s!"{name} = {value}", []⟩
  | note remark => ⟨.trace, Target.note, remark, []⟩
  | finished => ⟨.info, Target.program, "Everything seems fine. Goodbye.", []⟩
  | fatal message => ⟨.error, Target.fatal, message, []⟩

/-- A field as it stands. -/
def FieldValue.plain : FieldValue → String
  | text s => s
  | count n => toString n

/-- The names of the fields; the message is one of them. -/
def Record.fieldNames (r : Record) : List String :=
  "message" :: r.fields.map Prod.fst

/-- A message and its fields, each written with `write`. -/
def Record.body (write : FieldValue → String) (r : Record) : String :=
  r.message ++ String.join (r.fields.map fun f => s!" {f.1}={write f.2}")

/-- The line in a log: level, target, message and fields. -/
def Record.logLine (r : Record) : String :=
  s!"{r.level.label} {r.target}: {r.body FieldValue.plain}"

end Runbook
