/-!
# Levels

How important a report line is, from errors down to the trace of every step.
-/

namespace Runbook

/-- The importance of a report line. -/
inductive Level where
  | error
  | warn
  | info
  | debug
  | trace
  deriving Repr, DecidableEq

namespace Level

/-- Every level, the most important first. -/
def all : List Level := [error, warn, info, debug, trace]

/-- The level's name in report lines. -/
def label : Level → String
  | error => "ERROR"
  | warn => "WARN"
  | info => "INFO"
  | debug => "DEBUG"
  | trace => "TRACE"

/-- The level's name in filters. -/
def name : Level → String
  | error => "error"
  | warn => "warn"
  | info => "info"
  | debug => "debug"
  | trace => "trace"

/-- How much is reported if this level is; one for errors only. -/
def verbosity : Level → Nat
  | error => 1
  | warn => 2
  | info => 3
  | debug => 4
  | trace => 5

/-- Whether a line of level `l` is reported where `limit` is. -/
def within (l limit : Level) : Bool :=
  l.verbosity ≤ limit.verbosity

end Level
end Runbook
