import Runbook.Token.Scan
import Runbook.Group

/-!
# Binding errors

Why a control file does not denote a pipeline: the cause, where it was met and in which file. Each
cause belongs to one of eight kinds.
-/

namespace Runbook

/-- What a binding error is about. -/
inductive BindKind where
  | malformed
  | unknownMethod
  | unknownVariable
  | wrongGroup
  | unexpectedKeyword
  | wrongArity
  | unexpectedEnd
  | unreadable
  deriving Repr, DecidableEq

/-- The kind in words. -/
def BindKind.text : BindKind → String
  | malformed => "syntax error"
  | unknownMethod => "unknown method"
  | unknownVariable => "unknown variable"
  | wrongGroup => "wrong group"
  | unexpectedKeyword => "unexpected keyword"
  | wrongArity => "wrong arity"
  | unexpectedEnd => "unexpected end of input"
  | unreadable => "io error"

/-- What may come next in a control file. -/
inductive Expectation where
  | methodName
  | variableName
  | value
  | mark (m : Mark)
  /-- A comma, or the mark that closes the list. -/
  | commaOr (close : Mark)
  | keyword (name : String)
  deriving Repr, DecidableEq

/-- The expectation in words. -/
def Expectation.text : Expectation → String
  | methodName => "a method name"
  | variableName => "a variable name"
  | value => "a value"
  | mark m => m.text
  | commaOr close => s!"{Mark.comma.text} or {close.text}"
  | keyword name => "keyword " ++ name

/-- Why a control file does not denote a pipeline. -/
inductive BindFault where
  | scan (e : ScanError)
  /-- Another token than expected; `found` is its text. -/
  | unexpected (wanted : Expectation) (found : String)
  | endOfInput (wanted : Expectation)
  | unknownMethod (name : String)
  | unknownVariable (name : String)
  | variableGroup (name : String) (group : Group) (method : String) (wanted : Group)
  | genericCount (method : String) (takes given : Nat)
  | keywordOrder (given method wanted : String)
  | noSuchKeyword (method given : String)
  | missingKeyword (method keyword : String)
  | literalGroup (keyword method : String) (group : Group) (found : String)
  /-- A keyword after the last one that the method declares. -/
  | surplusKeyword (method : String)
  | embedsNothing (method : String)
  | unreadable (reason : String)
  deriving Repr, DecidableEq

namespace BindFault

/-- The kind of the fault. -/
def kind : BindFault → BindKind
  | scan _ | unexpected .. | embedsNothing _ => .malformed
  | endOfInput _ => .unexpectedEnd
  | unknownMethod _ => .unknownMethod
  | unknownVariable _ => .unknownVariable
  | variableGroup .. | literalGroup .. => .wrongGroup
  | genericCount .. | missingKeyword .. => .wrongArity
  | keywordOrder .. | noSuchKeyword .. | surplusKeyword _ => .unexpectedKeyword
  | unreadable _ => .unreadable

/-- The fault in words. -/
def message : BindFault → String
  | scan e => e.message
  | unexpected wanted found => s!"Expected {wanted.text}, found {found}"
  | endOfInput wanted => s!"Unexpected end of input, expected {wanted.text}"
  | unknownMethod name => s!"Unknown method '{name}'"
  | unknownVariable name => s!"Unknown workspace variable '{name}'"
  | variableGroup name group method wanted =>
    s!"Variable {name} is of group {group}, but method {method} expects {wanted} here"
  | genericCount method takes given =>
    s!"Method {method} takes {takes} generic variable(s), {given} given"
  | keywordOrder given method wanted =>
    s!"Keyword {given} of method {method} is out of order, expected {wanted}"
  | noSuchKeyword method given => s!"Method {method} has no keyword {given}"
  | missingKeyword method keyword => s!"Method {method} is missing keyword {keyword}"
  | literalGroup keyword method group found =>
    s!"Keyword {keyword} of method {method} expects {group}, found {found}"
  | surplusKeyword method => s!"Unexpected keyword for method {method}"
  | embedsNothing method => s!"Method {method} does not take an embedded pipeline"
  | unreadable reason => "Cannot read control file: " ++ reason

end BindFault

/-- A fault with its place and file, as far as they are known. -/
structure BindError where
  fault : BindFault
  position : Option Position
  file : Option String
  deriving Repr, DecidableEq

namespace BindError

/-- The fault, with file and place before it or, without a file, the place after it. -/
def text (e : BindError) : String :=
  match e.file, e.position with
  | some file, some p => s!"{file}:{p.text}: {e.fault.message}"
  | some file, none => s!"{file}: {e.fault.message}"
  | none, some p => s!"{e.fault.message} at {p.text}"
  | none, none => e.fault.message

end BindError
end Runbook
