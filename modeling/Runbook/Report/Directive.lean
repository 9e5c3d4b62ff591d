import Runbook.Decimal.Notation
import Runbook.Report.Level
import Runbook.Report.Pattern
import Runbook.Token.Number

/-!
# Directives

A directive says up to which level something is reported. It may be restricted to lines of a target,
to what happens in a span of a certain name, and to what has a field, perhaps with a certain value:
`target[span{field=value}]=level`, where each part may be missing.

Directives are told apart by all but their level, and ordered with the most specific ones first.
-/

namespace Runbook

/-- What the value of a field has to be. -/
inductive FieldTest where
  | truth (b : Bool)
  | decimal (x : Float)
  | notANumber
  | natural (n : Nat)
  /-- An integer with a minus sign. -/
  | integer (i : Int)
  /-- A regular expression. -/
  | pattern (source : String)
  deriving Repr

/-- A field that has to be there, and what its value has to be. -/
structure FieldMatch where
  name : String
  test : Option FieldTest
  deriving Repr

/-- Up to which level something is reported; without a level nothing is. -/
abbrev Limit := Option Level

/-- A limit, and what it holds for. -/
structure Directive where
  target : Option String
  span : Option String
  field : Option FieldMatch
  limit : Limit
  deriving Repr

/-! ## Texts -/

namespace FieldTest

/-- The test as it is written. -/
def text : FieldTest → String
  | truth b => toString b
  | decimal x => Double.plainText x
  | notANumber => "NaN"
  | natural n => toString n
  | integer i => toString i
  | pattern source => source

/-- The place of a test among those of other kinds. -/
def rank : FieldTest → Nat
  | truth _ => 0
  | decimal _ => 1
  | notANumber => 2
  | natural _ => 3
  | integer _ => 4
  | pattern _ => 5

/-- The order of tests: by kind, then by value. -/
def order : FieldTest → FieldTest → Ordering
  | truth a, truth b => compare a b
  | decimal x, decimal y => if x < y then .lt else if y < x then .gt else .eq
  | natural m, natural n => compare m n
  | integer i, integer j => compare i j
  | pattern s, pattern t => compare s t
  | s, t => compare s.rank t.rank

/-- A natural number of a machine word; a plus sign may stand before it. -/
def natural? (s : String) : Option Nat :=
  let digits := if s.startsWith "+" then s.toList.drop 1 else s.toList
  if digits.isEmpty || !digits.all Char.isDigit then none
  else if digitsValue digits < UInt64.size then some (digitsValue digits)
  else none

/-- An integer of a machine word, with a minus sign. -/
def integer? (s : String) : Option Int :=
  match s.toList with
  | '-' :: digits =>
    if digits.isEmpty || !digits.all Char.isDigit then none
    else if digitsValue digits ≤ Int64.minValue.toInt.natAbs then some (-digitsValue digits)
    else none
  | _ => none

/-- A number in decimal or scientific notation, an infinite one, or none at all. -/
def decimal? (s : String) : Option FieldTest :=
  let (sign, magnitude) := takeSign s.toList
  let infinite : Float := if sign == some '-' then -1.0 / 0.0 else 1.0 / 0.0
  match String.ofList (magnitude.map Char.toLower) with
  | "nan" => some notANumber
  | "inf" => some (decimal infinite)
  | "infinity" => some (decimal infinite)
  | _ =>
    let (number, rest) := NumberText.take s.toList
    if !rest.isEmpty || number.mantissa.isEmpty ||
        number.exponent.any fun e => e.digits.isEmpty then none
    else some (decimal number.toFloat)

/-- The test that a text stands for. What is no truth value and no number is a pattern. -/
def ofText? (s : String) : Option FieldTest :=
  if s = "true" then some (truth true)
  else if s = "false" then some (truth false)
  else
    match natural? s, integer? s, decimal? s with
    | some n, _, _ => some (natural n)
    | none, some i, _ => some (integer i)
    | none, none, some t => some t
    | none, none, none => if Pattern.isValid s then some (pattern s) else none

end FieldTest

namespace FieldMatch

/-- The field as it is written. -/
def text (m : FieldMatch) : String :=
  match m.test with
  | some t => s!"{m.name}={t.text}"
  | none => m.name

/-- The order of fields: those without a test first, then by name, then by test. -/
def order (m n : FieldMatch) : Ordering :=
  (compare m.test.isSome n.test.isSome).then ((compare m.name n.name).then
    (match m.test, n.test with
    | some s, some t => s.order t
    | _, _ => .eq))

/-- The field that a text stands for: a name, and a value after a sign of equality. A second such
sign ends the value. -/
def ofText? (s : String) : Option FieldMatch :=
  match s.splitOn "=" with
  | name :: value :: _ => (FieldTest.ofText? value).map fun t => ⟨name, some t⟩
  | _ => some ⟨s, none⟩

end FieldMatch

namespace Limit

/-- The name of a limit. -/
def text : Limit → String
  | some l => l.name
  | none => "off"

/-- The limit with a number or a name; names may be written in any case. -/
def ofText? (s : String) : Option Limit :=
  match FieldTest.natural? s with
  | some 0 => some none
  | some 1 => some (some .error)
  | some 2 => some (some .warn)
  | some 3 => some (some .info)
  | some 4 => some (some .debug)
  | some 5 => some (some .trace)
  | _ =>
    let name := String.ofList (s.toList.map Char.toLower)
    if name = "off" then some none
    else (Level.all.find? fun l => l.name == name).map some

end Limit

namespace Directive

/-- A target and a condition in brackets, before a limit. -/
def textOf (target condition : Option String) (limit : Limit) : String :=
  let scope := target.getD "" ++ (condition.map fun c => s!"[{c}]").getD ""
  if target.isNone && condition.isNone then limit.text else s!"{scope}={limit.text}"

/-- A field in braces. -/
def braced (field : String) : String :=
  "\x7b" ++ field ++ "\x7d"

/-- The directive as it is written. -/
def text (d : Directive) : String :=
  let condition := match d.span, d.field with
    | none, none => none
    | span, field => some (span.getD "" ++ (field.map fun m => braced m.text).getD "")
  textOf d.target condition d.limit

/-! ## Reading -/

/-- Whether a directive may begin with `c`. -/
def isStart (c : Char) : Bool :=
  c == '-' || c == ':' || c == '_' || Text.isAlphanumeric c

/-- The number of bytes of a text. -/
def size (cs : List Char) : Nat := (String.ofList cs).utf8ByteSize

/-- The bytes of a text from one place to another, if characters begin and end there. -/
def cut? (s : String) (start stop : Nat) : Option String :=
  String.fromUTF8? (s.toUTF8.extract start stop)

/-- Adds the limit that begins at byte `start` of a text; without one everything is reported. -/
def withLimit? (s : String) (start : Nat) (d : Directive) : Option Directive := do
  let level ← cut? s start s.utf8ByteSize
  if level.isEmpty then return { d with limit := some .trace }
  return { d with limit := ← Limit.ofText? level }

/-- Reads what follows the condition, from byte `start` of a text. -/
def afterCondition? (s : String) (start : Nat) (d : Directive) : List Char → Option Directive
  | [] => some d
  | '=' :: _ => d.withLimit? s (start + 1)
  | _ => none

/-- Reads a condition after its opening bracket, from byte `start` of a text: the name of a span,
which may be empty, and perhaps a field, before which an empty name is none. -/
def condition? (s : String) (start : Nat) (d : Directive) (cs : List Char) : Option Directive := do
  let span := cs.takeWhile fun c => c != ']' && c != '\x7b'
  let spanEnd := start + size span
  let name ← cut? s start spanEnd
  match cs.drop span.length with
  | ']' :: rest => afterCondition? s (spanEnd + 1) { d with span := some name } rest
  | '\x7b' :: rest =>
    let field := rest.takeWhile (· != '\x7d')
    let fieldEnd := spanEnd + 1 + size field
    match rest.drop field.length with
    | '\x7d' :: ']' :: rest =>
      if field.isEmpty then none
      else
        let m ← FieldMatch.ofText? (← cut? s (spanEnd + 1) fieldEnd)
        let span := if span.isEmpty then none else some name
        afterCondition? s (fieldEnd + 2) { d with span, field := some m } rest
    | _ => none
  | _ => none

/-- The directive that a text stands for. What is neither limit nor condition is a target, of which
everything is reported. The parts are found in the text without the blanks at its ends, but taken
from the text with them: a blank in front moves every part towards the front by as much. -/
def ofText? (s : String) : Option Directive := do
  let all : Directive := ⟨none, none, none, some .trace⟩
  match Text.trimBlanks s.toList with
  | [] => none
  | '[' :: cs => all.condition? s 1 cs
  | c :: cs =>
    if !isStart c then none
    else
      let target := (c :: cs).takeWhile fun c => c != '=' && c != '['
      let stop := size target
      match (c :: cs).drop target.length with
      | [] =>
        match Limit.ofText? s with
        | some limit => return { all with limit }
        | none => return { all with target := some s }
      | '=' :: _ => withLimit? s (stop + 1) { all with target := ← cut? s 0 stop }
      | _ :: rest => condition? s (stop + 1) { all with target := ← cut? s 0 stop } rest

/-! ## Order -/

/-- The order of parts that may be missing: a missing one comes first. -/
def orderParts {α : Type} (order : α → α → Ordering) : Option α → Option α → Ordering
  | none, none => .eq
  | none, some _ => .lt
  | some _, none => .gt
  | some a, some b => order a b

/-- The order of targets by length. -/
def orderLengths (s t : Option String) : Ordering :=
  orderParts compare (s.map String.utf8ByteSize) (t.map String.utf8ByteSize)

/-- The order of directives, the more specific one first: by the length of the target, by whether a
span is named, by whether a field is, then downwards by target, span and field. -/
def order (d e : Directive) : Ordering :=
  ((orderLengths d.target e.target).then
    ((compare d.span.isSome e.span.isSome).then
    ((compare d.field.isSome e.field.isSome).then
    ((orderParts compare d.target e.target).then
    ((orderParts compare d.span e.span).then
    (orderParts FieldMatch.order d.field e.field)))))).swap

end Directive

/-! ## Directives for lines -/

/-- A directive about report lines: of a target, and with a field. -/
structure LineDirective where
  target : Option String
  field : Option String
  limit : Limit
  deriving Repr, DecidableEq

namespace LineDirective

/-- The directive as it is written. -/
def text (d : LineDirective) : String :=
  Directive.textOf d.target (d.field.map Directive.braced) d.limit

/-- The order of directives, the more specific one first. -/
def order (d e : LineDirective) : Ordering :=
  ((Directive.orderLengths d.target e.target).then
    ((compare d.field.isSome e.field.isSome).then
    ((Directive.orderParts compare d.target e.target).then
    (Directive.orderParts compare d.field e.field)))).swap

/-- Whether the directive is about lines of a target with such fields. -/
def covers (d : LineDirective) (target : String) (fields : List String) : Bool :=
  d.target.all (fun t => t.toList.isPrefixOf target.toList) && d.field.all fields.contains

end LineDirective

namespace Directive

/-- Whether the directive is about what happens in a span: it names one, or a field. -/
def concernsSpans (d : Directive) : Bool :=
  d.span.isSome || d.field.isSome

/-- The directive as one about lines. A line has no span around it, and its fields are looked at by
name only. -/
def forLines? (d : Directive) : Option LineDirective :=
  match d.span, d.field with
  | none, none => some ⟨d.target, none, d.limit⟩
  | none, some ⟨name, none⟩ => some ⟨d.target, some name, d.limit⟩
  | _, _ => none

end Directive
end Runbook
