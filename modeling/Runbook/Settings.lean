import Runbook.Settings.Config
import Runbook.Settings.Path
import Runbook.Report.Digits
import Runbook.Run.Execution

/-!
# Settings

What a run is told besides its control files. A flag goes before the config file, and that before
the defaults; without any base name the report is called like the first control file.
-/

namespace Runbook

/-- Levels of the reports, name of the report file without its extension, and nesting limit. -/
structure Settings where
  levels : ReportLevels
  basename : Option String
  maxDepth : Nat
  deriving Repr, DecidableEq

namespace Settings

/-- Puts flags, config file and defaults together. The levels of the config file are looked at only
if no flag gives them. -/
def resolve (levels : Option ReportLevels) (basename : Option String) (config : Config)
    (controlFiles : List String) : Except ReportLevels.Invalid Settings := do
  let levels ←
    match levels, config.reporting with
    | some levels, _ => .ok levels
    | none, some raw => ReportLevels.parse raw
    | none, none => .ok ReportLevels.standard
  let basename := basename <|> config.basename <|> controlFiles.head?.map Path.withoutExtension
  return ⟨levels, basename, config.maxDepth.getD defaultMaxDepth⟩

/-- The extension of report files. -/
def reportExtension : String := ".rep"

/-- The path of the report file, if there is a base name. -/
def reportPath (s : Settings) : Option String :=
  s.basename.map (· ++ reportExtension)

end Settings
end Runbook
