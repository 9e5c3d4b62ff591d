import Runbook.Token.Number
import Runbook.Text.Blank

/-!
# Scanning

A control file as tokens. Blanks and comments separate tokens and mean nothing else; a comment runs
from a hash to the end of its line. The scan stops at the first fault.

Reading one lexeme says only how many characters it has. The scan then passes that many, so that it
is one walk along the characters with one place to count lines and columns.

* `Position.after` along the passed characters is the place of every token and fault.
-/

namespace Runbook

/-- Where and why a text could not be scanned, with the line it stands in. -/
structure ScanError where
  fault : ScanFault
  position : Position
  line : String
  deriving Repr, DecidableEq

namespace ScanError

/-- The fault, followed by its line unless that is empty. -/
def message (e : ScanError) : String :=
  if e.line.isEmpty then e.fault.message
  else s!"{e.fault.message} (line {e.position.line}: {Text.trim e.line})"

/-- The message with its place. -/
def text (e : ScanError) : String :=
  s!"{e.message} at {e.position.text}"

end ScanError

/-- Whether a name may begin with `c`. -/
def isNameStart (c : Char) : Bool :=
  c.isAlpha || c == '_'

/-- Whether a name may go on with `c`. -/
def isNamePart (c : Char) : Bool :=
  c.isAlphanum || c == '_'

/-- Whether a number may begin with `c`. -/
def isNumberStart (c : Char) : Bool :=
  c.isDigit || c == '+' || c == '-' || c == '.'

/-- A string after its opening quote: what stands before the closing one. -/
def readString (cs : List Char) : Except (ScanFault × Nat) (Token × Nat) :=
  let content := cs.takeWhile fun c => c != '"' && c != '\n'
  match cs.drop content.length with
  | '"' :: _ => .ok (.string (String.ofList content), content.length + 2)
  | [] => .error (.unterminatedString, content.length + 1)
  | _ :: _ => .error (.lineBreakInString, content.length + 1)

/-- The token at the head of `c :: cs`, which is neither blank nor a comment, and its number of
characters; or a fault and the number of characters before it was met. -/
def readLexeme (c : Char) (cs : List Char) : Except (ScanFault × Nat) (Token × Nat) :=
  if c = '"' then readString cs
  else if isNumberStart c then
    let n := (NumberText.take (c :: cs)).1
    match n.token with
    | .ok token => .ok (token, n.chars.length)
    | .error fault => .error (fault, n.chars.length)
  else if isNameStart c then
    let name := (c :: cs).takeWhile isNamePart
    .ok (.name (String.ofList name), name.length)
  else
    match Mark.ofChar? c with
    | some m => .ok (.mark m, 1)
    | none => .error (.unexpected c, 0)

/-- The tokens of the characters from `p` on, after passing `pending` of them. -/
def scanFrom (pending : Nat) (p : Position) :
    List Char → Except (ScanFault × Position) (List Placed)
  | [] => .ok []
  | c :: cs =>
    match pending with
    | k + 1 => scanFrom k (p.next c) cs
    | 0 =>
      if Text.isBlank c then scanFrom 0 (p.next c) cs
      else if c = '#' then scanFrom (cs.takeWhile (· != '\n')).length (p.next c) cs
      else
        match readLexeme c cs with
        | .error (fault, passed) => .error (fault, p.after ((c :: cs).take passed))
        | .ok (token, passed) => (⟨token, p⟩ :: ·) <$> scanFrom (passed - 1) (p.next c) cs

/-- The tokens of a control file. -/
def scan (source : String) : Except ScanError (List Placed) :=
  (scanFrom 0 .start source.toList).mapError fun (fault, p) =>
    ⟨fault, p, Text.line source p.line⟩

theorem scan_eq_ok_iff {source : String} {placed : List Placed} :
    scan source = .ok placed ↔ scanFrom 0 .start source.toList = .ok placed := by
  unfold scan
  cases scanFrom 0 .start source.toList with
  | error e => exact ⟨nofun, nofun⟩
  | ok us => exact ⟨fun h => by cases h; rfl, fun h => by cases h; rfl⟩

/-! ## Passing characters -/

theorem scanFrom_pending (p : Position) (cs ds : List Char) :
    scanFrom cs.length p (cs ++ ds) = scanFrom 0 (p.after cs) ds := by
  induction cs generalizing p with
  | nil => rfl
  | cons c cs ih => simpa [scanFrom] using ih (p.next c)

end Runbook
