import Runbook.Report.Pattern.Bracket
import Runbook.Text.Alphanumeric

/-!
# Patterns

Which texts are regular expressions, as far as filters need to know: no expression is ever matched,
but a directive with a faulty one is refused. A pattern stands between braces and after a sign of
equality, so it holds neither a closing brace nor that sign, and an opening brace is never closed.

An expression is read part by part. What has been read is kept as the depths of its parts, because
expressions that nest too deep are refused.
-/

namespace Runbook.Pattern

/-! ## Groups -/

/-- What an opening parenthesis begins. -/
inductive Opening where
  | group (flags : Flags)
  /-- A group with a name. -/
  | named (name : List Char)
  /-- Flags for the rest of the group that holds them. -/
  | flags (flags : Flags)
  deriving Repr, DecidableEq

/-- Reads flags up to a colon or a closing parenthesis; none may come twice, and a hyphen, which
switches off those behind it, must be followed by one. -/
def readFlags (f : Flags) (seen : List Char) : List Char → Option (Opening × List Char)
  | [] => none
  | ':' :: cs => if seen.head? == some '-' then none else some (.group f, cs)
  | ')' :: cs =>
    if seen.isEmpty || seen.head? == some '-' then none else some (.flags f, cs)
  | c :: cs =>
    if seen.contains c || !"imsUuRx-".toList.contains c then none
    else readFlags (f.set (!seen.contains '-') c) (c :: seen) cs

/-- Whether the name of a group may begin with `c`. -/
def isNameStart (c : Char) : Bool :=
  c == '_' || Text.isAlphabetic c

/-- Whether `c` may be in the name of a group. -/
def isNameChar (c : Char) : Bool :=
  c == '_' || c == '.' || c == '[' || c == ']' || Text.isAlphanumeric c

/-- Reads the name of a group and the bracket that closes it. -/
def readName (cs : List Char) : Option (Opening × List Char) :=
  let name := cs.takeWhile (· != '>')
  match name, cs.drop name.length with
  | c :: others, '>' :: rest =>
    if isNameStart c && others.all isNameChar then some (.named name, rest) else none
  | _, _ => none

/-- Reads what an opening parenthesis begins. -/
def readOpening (f : Flags) (cs : List Char) : Option (Opening × List Char) :=
  match skipSpace f false cs with
  | '?' :: 'P' :: '<' :: cs => readName cs
  | '?' :: '<' :: cs => readName cs
  | '?' :: cs => readFlags f [] cs
  | cs => some (.group f, cs)

/-! ## Expressions -/

/-- The depths of the parts of a group, the last one first: those of the branch that is being read,
and of the branches before it. -/
structure Parts where
  row : List Nat
  branches : List Nat
  deriving Repr, DecidableEq

namespace Parts

/-- Nothing has been read. -/
def empty : Parts := ⟨[], []⟩

/-- The parts with one more. -/
def add (p : Parts) (depth : Nat) : Parts := { p with row := depth :: p.row }

/-- The parts with the last one repeated. -/
def repeated (p : Parts) : Parts :=
  match p.row with
  | [] => p
  | d :: ds => { p with row := (d + 1) :: ds }

/-- The parts before another branch. -/
def branch (p : Parts) : Parts := ⟨[], rowDepth p.row :: p.branches⟩

/-- The depth of all parts together. -/
def depth (p : Parts) : Nat :=
  match p.branches with
  | [] => rowDepth p.row
  | bs => deepest (rowDepth p.row :: bs) + 1

end Parts

/-- What has been read of an expression: the flags in force, the names of groups, the parts of the
innermost open group, and whether the last one may be repeated. -/
structure State where
  flags : Flags
  names : List (List Char)
  parts : Parts
  repeatable : Bool
  /-- The parts of the groups around it, with the flags to go back to. -/
  outer : List (Flags × Parts)
  deriving Repr, DecidableEq

namespace State

/-- Nothing has been read. -/
def start : State := ⟨.standard, [], .empty, false, []⟩

/-- After a part that may be repeated. -/
def add (s : State) (depth : Nat) : State :=
  { s with parts := s.parts.add depth, repeatable := true }

/-- Inside a group with its own flags. -/
def enter (s : State) (f : Flags) : State :=
  ⟨f, s.names, .empty, false, (s.flags, s.parts) :: s.outer⟩

/-- After an opening parenthesis and what belongs to it. The name of a group may not come twice. -/
def open? (s : State) : Opening → Option State
  | .group f => some (s.enter f)
  | .named name =>
    if s.names.contains name then none else some { s.enter s.flags with names := name :: s.names }
  | .flags f => some { s with flags := f, parts := s.parts.add 0, repeatable := false }

/-- After a closing parenthesis. -/
def close? (s : State) : Option State :=
  match s.outer with
  | [] => none
  | (f, parts) :: outer =>
    some ⟨f, s.names, parts.add (s.parts.depth + 1), true, outer⟩

/-- After the sign of another branch. -/
def branch (s : State) : State :=
  { s with parts := s.parts.branch, repeatable := false }

/-- After a sign of repetition. -/
def repeat? (s : State) : Option State :=
  if s.repeatable then some { s with parts := s.parts.repeated } else none

/-- After a single character. -/
def literal? (s : State) : Option State :=
  if s.flags.takesLiterals then some (s.add 0) else none

/-- After an escape. -/
def escape? (s : State) : Escape → Option State
  | .literal _ => s.literal?
  | _ => some (s.add 0)

/-- After a character that stands for itself, for any other, or for a place. -/
def plain? (s : State) (c : Char) : Option State :=
  if c = '.' then if s.flags.unicode then some (s.add 0) else none
  else if c = '^' ∨ c = '$' then some (s.add 0)
  else s.literal?

end State

/-- Reads the rest of an expression and answers with the depth of the whole. Every step takes one
from `fuel`. -/
def readRest : Nat → State → List Char → Option Nat
  | 0, _, _ => none
  | fuel + 1, s, cs =>
    match skipSpace s.flags false cs with
    | [] => if s.outer.isEmpty then some s.parts.depth else none
    | '(' :: cs => do
      let (opening, rest) ← readOpening s.flags cs
      readRest fuel (← s.open? opening) rest
    | ')' :: rest => do readRest fuel (← s.close?) rest
    | '|' :: rest => readRest fuel s.branch rest
    | '[' :: cs => do
      let (depth, rest) ← readBracket s.flags cs
      readRest fuel (s.add depth) rest
    | '\\' :: cs => do
      let (e, rest) ← readEscape s.flags cs
      readRest fuel (← s.escape? e) rest
    | '{' :: _ => none
    | c :: rest =>
      if c = '*' ∨ c = '+' ∨ c = '?' then do
        readRest fuel (← s.repeat?) (if rest.head? == some '?' then rest.drop 1 else rest)
      else do readRest fuel (← s.plain? c) rest

/-- The depth of the expression that a text is, if it is one. -/
def depth? (s : String) : Option Nat :=
  readRest (s.length + 1) .start s.toList

/-- Whether a text is a regular expression that does not nest too deep. -/
def isValid (s : String) : Bool :=
  (depth? s).any (· ≤ nestLimit)

end Runbook.Pattern
