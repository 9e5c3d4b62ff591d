import Runbook.Settings.Entry
import Runbook.Text.Quoted

/-!
# Config files

A config file may set the reporting levels, the base name of the report and the nesting limit. No
other key is known. A fault is shown with the line that holds it and a mark below.
-/

namespace Runbook

/-! ## Faults in words -/

/-- The name of a form of strings. -/
def StringForm.name : StringForm → String
  | ⟨false, true⟩ => "basic string"
  | ⟨true, true⟩ => "multi-line basic string"
  | ⟨false, false⟩ => "literal string"
  | ⟨true, false⟩ => "multi-line literal string"

/-- What a string may hold. -/
def StringForm.contents : StringForm → String
  | ⟨false, true⟩ => "non-double-quote visible characters, `\\`"
  | ⟨true, true⟩ => "`\\`, characters"
  | ⟨false, false⟩ => "non-single-quote visible characters"
  | ⟨true, false⟩ => "characters"

/-- What ends a string. -/
def StringForm.closing : StringForm → String
  | ⟨false, true⟩ => "`\"`"
  | ⟨true, true⟩ => "`\"\"\"`"
  | ⟨false, false⟩ => "single quote"
  | ⟨true, false⟩ => "`'''`"

/-- A value of an entry with its kind. -/
def EntryValue.described : EntryValue → String
  | text s => s!"string {Text.quote s}"
  | integer i => s!"integer `{i}`"
  | truth b => s!"boolean `{b}`"

/-- The fault in words. -/
def ConfigFault.message : ConfigFault → String
  | badCharacter form => s!"invalid {form.name}, expected {form.contents}"
  | unclosed form => s!"invalid {form.name}, expected {form.closing}"
  | badEscape =>
    "missing escaped value, expected `b`, `e`, `f`, `n`, `r`, `\\`, `\"`, `x`, `u`, `U`"
  | badComment => "invalid comment character, expected printable characters"
  | noKey => "invalid key"
  | noEquals => "key with no value, expected `=`"
  | badValue => "string values must be quoted, expected literal string"
  | noLineEnd => "unexpected key or value, expected newline, `#`"
  | repeatedKey => "duplicate key"
  | unknownKey name =>
    s!"unknown field `{name}`, expected one of `reporting`, `basename`, `max_depth`"
  | wrongType found wanted => s!"invalid type: {found.described}, expected {wanted}"
  | negative i => s!"invalid value: integer `{i}`, expected usize"

/-- The fault under the line where it begins: number and text of the line, a mark under each byte
that it is about on it and under one at least, and the fault in words. -/
def ConfigError.message (text : String) (e : ConfigError) : String :=
  let cs := text.toList
  let before := cs.take (cs.length - e.place.ahead)
  let about := (cs.drop before.length).take (e.place.ahead - e.place.past)
  let line := before.count '\n' + 1
  let column := (before.reverse.takeWhile (· != '\n')).length + 1
  let content := (text.splitOn "\n")[line - 1]?.getD ""
  let number := toString line
  let width := max 1 (min (String.ofList about).utf8ByteSize content.utf8ByteSize)
  let copies (c : Char) (n : Nat) := String.ofList (List.replicate n c)
  let margin := copies ' ' (number.length + 1) ++ "|"
  Text.unlines
    [s!"TOML parse error at line {line}, column {column}", margin, s!"{number} | {content}",
      margin ++ copies ' ' column ++ copies '^' width, e.fault.message]

/-! ## Settings -/

/-- What a config file sets. -/
structure Config where
  reporting : Option String
  basename : Option String
  maxDepth : Option Nat
  deriving Repr, DecidableEq

namespace Config

/-- Nothing is set. -/
def empty : Config := ⟨none, none, none⟩

/-- The text that an entry sets. -/
def textOf (e : Entry) : Except ConfigError String :=
  match e.value with
  | .text s => .ok s
  | v => .error ⟨.wrongType v "a string", e.valuePlace⟩

/-- The count that an entry sets. -/
def countOf (e : Entry) : Except ConfigError Nat :=
  match e.value with
  | .integer i => if 0 ≤ i then .ok i.toNat else .error ⟨.negative i, e.valuePlace⟩
  | v => .error ⟨.wrongType v "usize", e.valuePlace⟩

/-- The config with what an entry sets. -/
def set (config : Config) (e : Entry) : Except ConfigError Config :=
  match e.key with
  | "reporting" => return { config with reporting := some (← textOf e) }
  | "basename" => return { config with basename := some (← textOf e) }
  | "max_depth" => return { config with maxDepth := some (← countOf e) }
  | name => .error ⟨.unknownKey name, e.keyPlace⟩

/-- What entries set. Of several faults the one with the least key is told. -/
def ofEntries (es : List Entry) : Except ConfigError Config :=
  (es.mergeSort fun d e => d.key ≤ e.key).foldlM set empty

/-- What a config file sets, if it is one; a mark of byte order at its head does not count. -/
def parse (text : String) : Except ConfigError Config := do
  let cs := match text.toList with
    | '\ufeff' :: cs => cs
    | cs => cs
  ofEntries (← Entry.readAll [] cs.length cs)

end Config
end Runbook
