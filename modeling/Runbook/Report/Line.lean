import Runbook.Report.Event
import Runbook.Text.Quoted

/-!
# Report lines

How a record is written on the screen and in the report file: the level in five columns, in the file
also time and target, then the message and the fields. Texts in fields are quoted; the message is
shielded and may run over several lines.
-/

namespace Runbook.Record

/-- The level, flush right in five columns. -/
def levelColumn (l : Level) : String :=
  String.ofList (List.replicate (5 - l.label.length) ' ') ++ l.label

/-- A field with its text in quotes. -/
def quotedField : FieldValue → String
  | .text s => Text.quote s
  | .count n => toString n

/-- Message and fields. -/
def content (r : Record) : String :=
  { r with message := Text.shield r.message }.body quotedField

/-- The line on the screen. -/
def screenLine (r : Record) : String :=
  s!"{levelColumn r.level} {r.content}"

/-- The line in the report file. -/
def fileLine (time : String) (r : Record) : String :=
  s!"{time} {levelColumn r.level} {r.target}: {r.content}"

end Runbook.Record
