import Runbook.Report.Level
import Runbook.Text.Blank

/-!
# Reporting levels

How much is reported on the screen and in the report file, given as two digits.
-/

namespace Runbook

/-- How much is reported on the screen and in the report file, each from errors only to
everything. -/
structure ReportLevels where
  screen : Fin 4
  file : Fin 4
  deriving Repr, DecidableEq

namespace ReportLevels

/-- What is reported unless the user says otherwise. -/
def standard : ReportLevels := ⟨1, 3⟩

/-- The digits from 0 to 3. -/
def digit? : Char → Option (Fin 4)
  | '0' => some 0
  | '1' => some 1
  | '2' => some 2
  | '3' => some 3
  | _ => none

/-- A text that is not two digits. -/
structure Invalid where
  raw : String
  deriving Repr, DecidableEq

/-- The fault in words. -/
def Invalid.message (e : Invalid) : String :=
  s!"Invalid reporting level '{e.raw}': expected two digits, the first for the screen and " ++
    "the second for the report file, each between 0 (errors only) and 3 (everything)"

/-- The levels that two digits stand for; blanks at the ends do not count. -/
def parse (raw : String) : Except Invalid ReportLevels :=
  match (Text.trim raw).toList.map digit? with
  | [some screen, some file] => .ok ⟨screen, file⟩
  | _ => .error ⟨raw⟩

/-- The level that a digit stands for. -/
def limit : Fin 4 → Level
  | 0 => .error
  | 1 => .info
  | 2 => .debug
  | 3 => .trace

end ReportLevels

end Runbook
