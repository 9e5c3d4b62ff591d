import Runbook.Text.Blank
import Runbook.Text.Hexadecimal

/-!
# Escapes in patterns

What may stand after a backslash, under the flags in force.

Matching is by a deterministic automaton without tables of character properties. So classes of
letters, digits and blanks, word boundaries, and letters of either case are known for single bytes
only, that is, under `(?-u)`; and what could match a part of a character is refused there.

Readers take the characters ahead and answer with the rest, or with nothing if they are faulty.
-/

namespace Runbook.Pattern

/-- What the flags in force say. -/
structure Flags where
  eitherCase : Bool
  unicode : Bool
  /-- Blanks and comments between the parts of the pattern do not count. -/
  spaced : Bool
  deriving Repr, DecidableEq

/-- The flags at the start of a pattern. -/
def Flags.standard : Flags := ⟨false, true, false⟩

/-- Whether single characters have a match. -/
def Flags.takesLiterals (f : Flags) : Bool := !(f.eitherCase && f.unicode)

/-- The flags with one letter switched on or off. -/
def Flags.set (f : Flags) (on : Bool) : Char → Flags
  | 'i' => { f with eitherCase := on }
  | 'u' => { f with unicode := on }
  | 'x' => { f with spaced := on }
  | _ => f

/-- Passes blanks and comments where they do not count. -/
def skipSpace (f : Flags) (comment : Bool) : List Char → List Char
  | [] => []
  | c :: cs =>
    if !f.spaced then c :: cs
    else if comment then skipSpace f (c != '\n') cs
    else if c = '#' then skipSpace f true cs
    else if Text.isBlank c then skipSpace f false cs
    else c :: cs

/-- What an escape stands for. -/
inductive Escape where
  | literal (code : Nat)
  /-- Any character of a kind. -/
  | kind
  /-- A place rather than a character. -/
  | boundary
  deriving Repr, DecidableEq

/-- Reads so many digits of a code point, after those that spell `value`. -/
def readCode (f : Flags) : Nat → Nat → List Char → Option (Nat × List Char)
  | 0, value, cs => if value.isValidChar then some (value, cs) else none
  | digits + 1, value, cs =>
    match skipSpace f false cs with
    | [] => none
    | c :: cs =>
      match Text.hexDigit? c with
      | some d => readCode f digits (16 * value + d) cs
      | none => none

/-- The control character that a letter after the backslash stands for. -/
def control? : Char → Option Nat
  | 'a' => some 0x07
  | 'f' => some 0x0c
  | 't' => some 0x09
  | 'n' => some 0x0a
  | 'r' => some 0x0d
  | 'v' => some 0x0b
  | _ => none

/-- Whether `c` may stand after a backslash for itself. -/
def isEscapable (c : Char) : Bool :=
  c.toNat < 0x80 && !c.isAlphanum && c != '<' && c != '>'

/-- Reads an escape after its backslash. A byte given by two digits must be a whole character. -/
def readEscape (f : Flags) : List Char → Option (Escape × List Char)
  | [] => none
  | 'x' :: cs => do
    let (n, rest) ← readCode f 2 0 cs
    if f.unicode || n < 0x80 then some (.literal n, rest) else none
  | 'u' :: cs => (readCode f 4 0 cs).map fun (n, rest) => (.literal n, rest)
  | 'U' :: cs => (readCode f 8 0 cs).map fun (n, rest) => (.literal n, rest)
  | c :: cs =>
    match control? c with
    | some n => some (.literal n, cs)
    | none =>
      if "dsw".toList.contains c then if f.unicode then none else some (.kind, cs)
      else if "bB<>".toList.contains c then if f.unicode then none else some (.boundary, cs)
      else if "Az".toList.contains c then some (.boundary, cs)
      else if isEscapable c then some (.literal c.toNat, cs)
      else none

end Runbook.Pattern
