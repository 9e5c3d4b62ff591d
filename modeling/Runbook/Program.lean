import Runbook.Catalog.Listing
import Runbook.ControlFile.Binding
import Runbook.Invocation
import Runbook.Report.Filter
import Runbook.Report.Line
import Runbook.Settings
import Runbook.Standard.Sets

/-!
# The program

From a command line to an exit code. A listing is printed at once. Otherwise the settings are put
together, the report file is begun, and the control files are read, bound into one pipeline, and
checked or run.

What a run comes to is settled by `work` alone, which turns what was read into events and a failure;
`run` brings it in contact with a host, which may be a real one or a file tree in memory.
-/

namespace Runbook.Program

/-- What the program needs of its surroundings. -/
structure Host (m : Type → Type) where
  /-- The text of a file, or why it cannot be read. -/
  read : String → m (Except String String)
  /-- Begins a file with a text, or says why that cannot be done. -/
  create : String → String → m (Except String Unit)
  /-- Adds a text to a file. -/
  append : String → String → m Unit
  out : String → m Unit
  err : String → m Unit
  /-- Date and time of day, for the head of the report. -/
  today : m String
  /-- The time that is put before a line of the report. -/
  now : m String

/-- An error and what caused it, the outermost first. -/
abbrev Chain := List String

/-- The chain on one line. -/
def chainText (c : Chain) : String :=
  ": ".intercalate c

/-- The listing that is asked for; a description goes before the methods and these before the
variables. -/
def listing? (c : Catalog) (i : Invocation) : Option (Except Catalog.ListingFault String) :=
  match i.describe, i.methodsOf, i.variablesOf with
  | some name, _, _ => some (c.describe name)
  | none, some which, _ => some (c.listMethods which)
  | none, none, some which => some (c.listVariables which)
  | none, none, none => none

/-- Binds the files, then checks or runs their pipeline: what happens, and why it fails if it
does. -/
def work (lib : Library) (maxDepth : Nat) (checkOnly : Bool)
    (files : List (String × ControlFile.Contents)) : List Event × Option Chain :=
  let c := lib.catalog
  let (parts, fault) := ControlFile.bindEach c files
  let bound := parts.map fun p => Event.bound p.name p.tasks.length
  match fault with
  | some e => (bound, some ["Binding control files failed", e.text])
  | none =>
    let p := ControlFile.join parts
    let events := bound ++ [.filesBound p.tasks.length files.length]
    if checkOnly then
      match p.check c [] with
      | .ok () => (events ++ [.consistent], none)
      | .error e => (events, some [e.message])
    else
      let (result, after) := lib.run maxDepth false p (.fresh c)
      let events := events ++ after.log.toList
      match result with
      | .ok () => (events ++ [.finished], none)
      | .error e => (events, some e.chain)

/-- Name and version. -/
def versionText : String := "pipex 0.1.0"

/-- The head of a report that is begun at the given date and time. -/
def reportHead (today : String) : String :=
  s!"{versionText} report, started {today}\n"

/-- How the program is used. -/
def usageText : String :=
  Text.unlines
    ["Bind and execute pipeline control files", "",
     "Usage: pipex [OPTIONS] [CONTROLFILES]...", "",
     "Arguments:",
     "  [CONTROLFILES]...  Control files, bound in order into one pipeline", "",
     "Options:",
     "  -r, --reporting <NN>                     " ++
       "Two digits: screen level then report-file level, each 0-3",
     "  -b, --basename <NAME>                    " ++
       "Report file basename; the report is written to NAME.rep",
     "  -d, --describe <NAME>                    " ++
       "Print the definition of a method or workspace variable",
     "  -m, --methods <all|VAR>                  " ++
       "List all methods, or the methods producing VAR",
     "  -w, --workspacevariables <all|METHOD>    " ++
       "List all workspace variables, or the inputs of METHOD",
     "      --check                              " ++
       "Bind and check the control files without executing them",
     "      --config <FILE>                      " ++
       "TOML file with reporting, basename and max_depth",
     "  -h, --help                               Print help",
     "  -V, --version                            Print version"]

section

variable {m : Type → Type} [Monad m] (host : Host m)

/-- Ends with an error on the screen. -/
def fail (chain : Chain) : m UInt32 := do
  host.err s!"Error: {chainText chain}\n"
  return 1

/-- Reads control files in order. All of them are read before any is bound. A program that binds
each file before it reads the next may by then have added lines to its report, and find them in a
control file at the same place; either way that file is refused for the time of day in the head. -/
def readFiles : List String → m (List (String × ControlFile.Contents))
  | [] => return []
  | path :: paths => do
    let contents ← host.read path
    return (path, contents) :: (← readFiles paths)

/-- Adds a record to the report file, if there is one and the record is asked for there. -/
def fileRecord (file : Level) (path : Option String) (r : Record) : m Unit := do
  match path with
  | none => return
  | some path =>
    if r.level.within file then
      host.append path (r.fileLine (← host.now) ++ "\n")

/-- Reports an event on the screen and in the report file, as far as it is asked for there. -/
def reportEvent (screen : Filter) (file : Level) (path : Option String) (e : Event) : m Unit := do
  if screen.passes e.record then
    host.err (e.record.screenLine ++ "\n")
  fileRecord host file path e.record

/-- Begins the report file. -/
def beginReport : Option String → m (Except Chain Unit)
  | none => return .ok ()
  | some path => do
    let r ← host.create path (reportHead (← host.today))
    return r.mapError fun reason => [s!"Cannot create report file '{path}'", reason]

/-- The settings in the config file, if one is given. -/
def loadConfig : Option String → m (Except Chain Config)
  | none => return .ok .empty
  | some path => do
    match ← host.read path with
    | .error reason => return .error [s!"Failed to read config file '{path}'", reason]
    | .ok text =>
      match Config.parse text with
      | .ok config => return .ok config
      | .error e => return .error [s!"Invalid config file '{path}'", e.message text]

/-- Reports what the files that were read come to, and ends accordingly. -/
def conclude (lib : Library) (i : Invocation) (trace : Option String) (settings : Settings)
    (files : List (String × ControlFile.Contents)) : m UInt32 := do
  let path := settings.reportPath
  let screen := Filter.screen (ReportLevels.limit settings.levels.screen) trace
  let file := ReportLevels.limit settings.levels.file
  let (events, failure) := work lib settings.maxDepth i.checkOnly files
  events.forM (reportEvent host screen file path)
  match failure with
  | none => return 0
  | some chain =>
    reportEvent host screen file path (.fatal (chainText chain))
    fail host chain

/-- Runs the control files under the given settings. The report is begun before they are read. -/
def runFiles (lib : Library) (i : Invocation) (trace : Option String) (settings : Settings) :
    m UInt32 := do
  match ← beginReport host settings.reportPath with
  | .error chain => fail host chain
  | .ok () => conclude host lib i trace settings (← readFiles host i.controlFiles)

/-- Answers an invocation. -/
def runInvocation (lib : Library) (i : Invocation) (trace : Option String) : m UInt32 := do
  match listing? lib.catalog i with
  | some (.ok text) =>
    host.out text
    return 0
  | some (.error e) => fail host [e.message]
  | none =>
    match ← loadConfig host i.config with
    | .error chain => fail host chain
    | .ok config =>
      match Settings.resolve i.levels i.basename config i.controlFiles with
      | .error e => fail host [e.message]
      | .ok settings => runFiles host lib i trace settings

/-- The whole program: the words of the command line and the trace switch to an exit code. -/
def run (lib : Library) (words : List String) (trace : Option String) : m UInt32 := do
  match Invocation.parse words with
  | .error e =>
    host.err s!"error: {e.message}\n\n{usageText}"
    return 2
  | .ok .version =>
    host.out (versionText ++ "\n")
    return 0
  | .ok .help =>
    host.out usageText
    return 0
  | .ok (.work i) => runInvocation host lib i trace

end

end Runbook.Program
