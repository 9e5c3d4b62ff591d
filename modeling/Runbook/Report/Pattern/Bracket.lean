import Runbook.Report.Pattern.Depth
import Runbook.Report.Pattern.Escape

/-!
# Sets in patterns

A set of characters stands in brackets: single characters, ranges, named sets and further sets, and
operators between them. Under `(?-u)` a set holds no character beyond the first 128, so none is
the complement of another. Where single characters have no match only sets without members remain.

Reading a set answers with its depth.
-/

namespace Runbook.Pattern

/-- The names of the sets of the first 128 characters. -/
def asciiSets : List String :=
  ["alnum", "alpha", "ascii", "blank", "cntrl", "digit", "graph", "lower", "print", "punct",
    "space", "upper", "word", "xdigit"]

/-- Reads a named set, between brackets and colons, after the opening bracket: whether it is a
complement, and the rest. -/
def readNamedSet : List Char → Option (Bool × List Char)
  | ':' :: cs =>
    let negated := cs.head? == some '^'
    let cs := if negated then cs.drop 1 else cs
    let name := cs.takeWhile (· != ':')
    match cs.drop name.length with
    | ':' :: ']' :: rest =>
      if asciiSets.contains (String.ofList name) then some (negated, rest) else none
    | _ => none
  | _ => none

/-- Passes hyphens and counts them. Every hyphen takes one from `fuel`. -/
def countHyphens (f : Flags) : Nat → List Char → Nat × List Char
  | fuel + 1, '-' :: cs =>
    let (n, rest) := countHyphens f fuel (skipSpace f false cs)
    (n + 1, rest)
  | _, cs => (0, cs)

/-- Reads what may stand right after the bracket that opens a set: a caret, then hyphens, or a
closing bracket that is meant as a member. Answers with the number of members. -/
def openSet (f : Flags) (cs : List Char) : Option (Nat × List Char) :=
  let cs := skipSpace f false cs
  let negated := cs.head? == some '^'
  if negated && !f.unicode then none
  else
    let cs := if negated then skipSpace f false (cs.drop 1) else cs
    let (members, rest) := match countHyphens f cs.length cs with
      | (0, ']' :: rest) => (1, rest)
      | counted => counted
    if members = 0 || f.takesLiterals then some (members, rest) else none

/-- Reads a member of a set. -/
def readMember (f : Flags) : List Char → Option (Escape × List Char)
  | [] => none
  | '\\' :: cs => readEscape f cs
  | c :: cs => some (.literal c.toNat, cs)

/-- Whether the member may be in a set. -/
def isMember (f : Flags) : Escape → Bool
  | .literal n => f.unicode || n < 0x80
  | .kind => true
  | .boundary => false

/-- The character that decides what a hyphen means, given those behind it: the next one that does
count. Of a comment only the sign is passed. -/
def afterHyphen? (f : Flags) (cs : List Char) : Option Char :=
  if !f.spaced then cs.head?
  else
    match cs.dropWhile Text.isBlank with
    | [] => cs.head?
    | '#' :: comment => (comment.dropWhile Text.isBlank).head?.or cs.head?
    | c :: _ => some c

/-- Passes a member of a set, or two with a hyphen between them, which must be in order. -/
def skipRange (f : Flags) (cs : List Char) : Option (List Char) := do
  let (low, afterLow) ← readMember f cs
  if !isMember f low || !f.takesLiterals then none
  else
    match skipSpace f false afterLow with
    | '-' :: behind =>
      if afterHyphen? f behind == some ']' || afterHyphen? f behind == some '-' then
        some ('-' :: behind)
      else
        let (high, rest) ← readMember f (skipSpace f false behind)
        match low, high with
        | .literal l, .literal h => if l ≤ h && isMember f high then some rest else none
        | _, _ => none
    | rest => some rest

/-- What has been read of a set: the depth of what stands before the last operator, and the depths
of the members behind it. -/
structure OpenSet where
  left : Option Nat
  members : List Nat
  deriving Repr, DecidableEq

/-- The depth of what has been read of a set. -/
def OpenSet.depth (s : OpenSet) : Nat :=
  match s.left with
  | none => rowDepth s.members
  | some left => max left (rowDepth s.members) + 1

/-- The set with one member more. -/
def OpenSet.add (s : OpenSet) (depth : Nat) : OpenSet :=
  { s with members := depth :: s.members }

/-- The set after an operator. -/
def OpenSet.operate (s : OpenSet) : OpenSet := ⟨some s.depth, []⟩

/-- Reads the rest of a set that stands in the sets `outer`, to the end of the outermost one. Every
step takes one from `fuel`. -/
def readSet (f : Flags) : Nat → OpenSet → List OpenSet → List Char → Option (Nat × List Char)
  | 0, _, _, _ => none
  | fuel + 1, s, outer, cs =>
    match skipSpace f false cs with
    | ']' :: rest =>
      match outer with
      | [] => some (s.depth + 1, rest)
      | t :: outer => readSet f fuel (t.add (s.depth + 1)) outer rest
    | '[' :: rest =>
      match readNamedSet rest with
      | some (negated, rest) =>
        if f.takesLiterals && (f.unicode || !negated) then readSet f fuel (s.add 0) outer rest
        else none
      | none => do
        let (members, rest) ← openSet f rest
        readSet f fuel ⟨none, List.replicate members 0⟩ (s :: outer) rest
    | '&' :: '&' :: rest => readSet f fuel s.operate outer rest
    | '-' :: '-' :: rest => readSet f fuel s.operate outer rest
    | '~' :: '~' :: rest => readSet f fuel s.operate outer rest
    | cs => do readSet f fuel (s.add 0) outer (← skipRange f cs)

/-- Reads a set after its opening bracket. -/
def readBracket (f : Flags) (cs : List Char) : Option (Nat × List Char) := do
  let (members, rest) ← openSet f cs
  readSet f (rest.length + 1) ⟨none, List.replicate members 0⟩ [] rest

end Runbook.Pattern
