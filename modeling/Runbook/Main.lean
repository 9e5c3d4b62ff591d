import Std.Time.Format
import Runbook.Program.FileTree

/-!
# The command line

The program on the file system, the standard streams and the clock of the machine it runs on. The
report begins with local time; its lines carry universal time to the microsecond.
-/

namespace Runbook.Program

/-- What the system says about a failed operation: its text and number. -/
def failureText : IO.Error → String
  | .alreadyExists _ code text | .otherError code text | .resourceBusy code text
  | .resourceVanished code text | .unsupportedOperation code text | .hardwareFault code text
  | .unsatisfiedConstraints code text | .illegalOperation code text | .protocolError code text
  | .timeExpired code text | .interrupted _ code text | .noFileOrDirectory _ code text
  | .invalidArgument _ code text | .permissionDenied _ code text | .resourceExhausted _ code text
  | .inappropriateType _ code text | .noSuchThing _ code text => s!"{text} (os error {code})"
  | .unexpectedEof => "unexpected end of file"
  | .userError text => text

/-- The result of an operation, or what the system says. -/
def attempt {α : Type} (action : IO α) : IO (Except String α) := do
  return (← action.toBaseIO).mapError failureText

/-- The result of an operation on a file, whose name the system takes only if it holds no NUL. -/
def attemptOn {α : Type} (path : String) (action : IO α) : IO (Except String α) :=
  if path.toList.contains '\x00' then return .error FileFault.nulInName.message
  else attempt action

/-- The text of a file, or why there is none. -/
def readText (path : String) : IO (Except String String) := do
  match ← attemptOn path (IO.FS.withFile path .read fun file => file.readBinToEnd) with
  | .error reason => return .error reason
  | .ok bytes =>
    match String.fromUTF8? bytes with
    | some text => return .ok text
    | none => return .error FileFault.notText.message

/-- Local date and time to the second. -/
def localTime : IO String := do
  return (← Std.Time.PlainDateTime.now).format "uuuu-MM-dd HH:mm:ss"

/-- Universal date and time to the microsecond. -/
def universalTime : IO String := do
  let time := Std.Time.PlainDateTime.ofWallTime ((← Std.Time.Timestamp.now).toWallTime .zero)
  return time.format "uuuu-MM-dd'T'HH:mm:ss.SSSSSS'Z'"

/-- The machine as a host. -/
def machine : Host IO where
  read := readText
  create path text := attemptOn path (IO.FS.writeFile path text)
  append path text := do
    let _ ← attempt (IO.FS.withFile path .append fun file => file.putStr text)
  out text := do (← IO.getStdout).putStr text
  err text := do (← IO.getStderr).putStr text
  today := localTime
  now := universalTime

/-- The variable of the environment that holds the trace switch. -/
def traceVariable : String := "PIPEX_TRACE"

end Runbook.Program

def main (words : List String) : IO UInt32 := do
  Runbook.Program.run Runbook.Program.machine Runbook.Standard.library words
    (← IO.getEnv Runbook.Program.traceVariable)
