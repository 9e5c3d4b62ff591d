import Runbook.Decimal.Notation

/-!
# Tokens and positions

The words of a control file and where they stand. Lines and columns count from 1, offsets from 0,
all in characters.
-/

namespace Runbook

/-- A place in a text. Lines and columns have no bound here; a program that counts them in 32 bits
finds the same places in every text with fewer than `2 ^ 32` lines and columns. -/
structure Position where
  line : Nat
  column : Nat
  offset : Nat
  deriving Repr, DecidableEq

namespace Position

/-- The place of the first character. -/
def start : Position := ⟨1, 1, 0⟩

/-- The place after a character: a line feed ends the line. -/
def next (p : Position) (c : Char) : Position :=
  if c = '\n' then ⟨p.line + 1, 1, p.offset + 1⟩ else ⟨p.line, p.column + 1, p.offset + 1⟩

/-- The place after some characters. -/
def after (p : Position) (cs : List Char) : Position :=
  cs.foldl next p

@[simp] theorem after_nil (p : Position) : p.after [] = p := rfl

@[simp] theorem after_cons (p : Position) (c : Char) (cs : List Char) :
    p.after (c :: cs) = (p.next c).after cs := rfl

theorem after_append (p : Position) (cs ds : List Char) :
    p.after (cs ++ ds) = (p.after cs).after ds :=
  List.foldl_append

@[simp] theorem offset_next (p : Position) (c : Char) : (p.next c).offset = p.offset + 1 := by
  unfold next; split <;> rfl

theorem offset_after (p : Position) (cs : List Char) :
    (p.after cs).offset = p.offset + cs.length := by
  induction cs generalizing p with
  | nil => rfl
  | cons c cs ih => rw [after_cons, ih, offset_next, List.length_cons]; omega

/-- Line and column. -/
def text (p : Position) : String :=
  s!"{p.line}:{p.column}"

end Position

/-- The punctuation of control files. -/
inductive Mark where
  | leftParen
  | rightParen
  | leftBrace
  | rightBrace
  | leftBracket
  | rightBracket
  | comma
  | equals
  deriving Repr, DecidableEq

namespace Mark

/-- The character that spells the mark. -/
def char : Mark → Char
  | leftParen => '('
  | rightParen => ')'
  | leftBrace => '{'
  | rightBrace => '}'
  | leftBracket => '['
  | rightBracket => ']'
  | comma => ','
  | equals => '='

/-- The mark that `c` spells. -/
def ofChar? : Char → Option Mark
  | '(' => some leftParen
  | ')' => some rightParen
  | '{' => some leftBrace
  | '}' => some rightBrace
  | '[' => some leftBracket
  | ']' => some rightBracket
  | ',' => some comma
  | '=' => some equals
  | _ => none

/-- The mark in messages. -/
def text (m : Mark) : String :=
  String.ofList ['\'', m.char, '\'']

end Mark

/-- A word of a control file. -/
inductive Token where
  | mark (m : Mark)
  | string (s : String)
  | integer (i : Int64)
  | number (x : Float)
  | name (s : String)

namespace Token

/-- The token in messages. -/
def text : Token → String
  | mark m => m.text
  | string s => "string \"" ++ s ++ "\""
  | integer i => "integer " ++ toString i.toInt
  | number x => "number " ++ Double.plainText x
  | name s => "name '" ++ s ++ "'"

end Token

/-- A token and where it begins. -/
structure Placed where
  token : Token
  position : Position

end Runbook
