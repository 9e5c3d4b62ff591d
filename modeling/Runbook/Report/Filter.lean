import Runbook.Report.Directive
import Runbook.Report.Event

/-!
# Filters

Which report lines reach the screen. The level comes from a digit, but a trace switch may overrule
it: on, off, or a list of directives. Errors that the user sees anyway are never repeated on the
screen.

Of the directives about lines the first one decides that covers a line, so the most specific one
does. Those about spans cover no line, because nothing happens in a span here; a directive that
names a field and no value is about both.
-/

namespace Runbook

/-- Directives in the order in which they are asked. -/
structure Filter where
  lines : List LineDirective
  spans : List Directive

namespace Filter

/-- Adds a directive in front of the less specific ones. One that says something about the same is
replaced. -/
def insert {α : Type} (order : α → α → Ordering) (d : α) : List α → List α
  | [] => [d]
  | e :: es =>
    match order d e with
    | .lt => d :: e :: es
    | .eq => d :: es
    | .gt => e :: insert order d es

/-- Directives put in order; a later one replaces an earlier one. -/
def arrange {α : Type} (order : α → α → Ordering) (ds : List α) : List α :=
  ds.foldl (fun es d => insert order d es) []

/-- The filter of a list of directives. Those about lines alone come before those that are about
spans, too. -/
def ofDirectives (ds : List Directive) : Filter :=
  let spans := ds.filter Directive.concernsSpans
  let others := ds.filter fun d => !d.concernsSpans
  { lines := arrange LineDirective.order ((others ++ spans).filterMap Directive.forLines?)
    spans := arrange Directive.order spans }

/-- The filter of directives that are separated by commas; empty ones do not count. -/
def ofExpression? (s : String) : Option Filter :=
  let parts := (s.splitOn ",").filter fun part => !part.isEmpty
  (parts.mapM Directive.ofText?).map ofDirectives

/-- The directives in order. -/
def text (f : Filter) : String :=
  ",".intercalate (f.lines.map LineDirective.text ++ f.spans.map Directive.text)

/-- Whether a line of that level and target, with such fields, is reported. -/
def enabled (f : Filter) (level : Level) (target : String) (fields : List String) : Bool :=
  match f.lines.find? fun d => d.covers target fields with
  | some d => d.limit.any level.within
  | none => false

/-- Whether a line is reported. -/
def passes (f : Filter) (r : Record) : Bool :=
  f.enabled r.level r.target r.fieldNames

/-! ## The screen -/

/-- The directive that keeps errors off the screen that the user sees anyway. -/
def withoutFatal (expression : String) : String :=
  s!"{expression},{Target.fatal}=off"

/-- Whether `s` is one of the words, in any case. -/
def isWord (words : List String) (s : String) : Bool :=
  words.contains (String.ofList (s.toList.map Char.toLower))

/-- What a trace switch asks for, given the level of the digit. -/
def expression (screen : Level) (trace : Option String) : String :=
  match trace.map Text.trim with
  | none => screen.name
  | some s =>
    if isWord ["", "0", "false", "off"] s then screen.name
    else if isWord ["1", "true", "on"] s then Level.trace.name
    else s

/-- The filter of the screen. A switch that makes no sense asks for info. -/
def screen (level : Level) (trace : Option String) : Filter :=
  match ofExpression? (withoutFatal (expression level trace)) with
  | some f => f
  | none => (ofExpression? (withoutFatal Level.info.name)).getD ⟨[], []⟩

end Filter
end Runbook
