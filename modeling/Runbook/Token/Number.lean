import Runbook.Decimal.Reading
import Runbook.Token

/-!
# Number lexemes

The longest number at the head of a text, taken apart: optional sign, digits with an optional point
on either side or among them, optional exponent with its own sign. The exponent is looked for only
after a mantissa digit. A number without point and exponent is an integer.

* `NumberText.append_rest`: the parts and the rest spell the text.
-/

namespace Runbook

/-- Why a text is not a sequence of tokens. -/
inductive ScanFault where
  | unterminatedString
  | lineBreakInString
  | missingDigit
  | incompleteExponent
  | malformedNumber (lexeme : String)
  | numberRange (lexeme : String)
  | integerRange (lexeme : String)
  | unexpected (c : Char)
  deriving Repr, DecidableEq

namespace ScanFault

/-- The fault in words. -/
def message : ScanFault → String
  | unterminatedString => "Unterminated string"
  | lineBreakInString => "Line break before end of string"
  | missingDigit => "Expected at least one digit"
  | incompleteExponent => "Invalid number, incomplete exponent"
  | malformedNumber lexeme => "Invalid float: " ++ lexeme
  | numberRange lexeme => "Float out of range: " ++ lexeme
  | integerRange lexeme => "Invalid integer: " ++ lexeme
  | unexpected c => "Unexpected character '" ++ c.toString ++ "'"

end ScanFault

/-- The exponent part of a number. -/
structure ExponentText where
  mark : Char
  sign : Option Char
  digits : List Char
  deriving Repr, DecidableEq

/-- A number as written. The digits after the point are absent when the point is. -/
structure NumberText where
  sign : Option Char
  whole : List Char
  fraction : Option (List Char)
  exponent : Option ExponentText
  deriving Repr, DecidableEq

/-- The digits at the head of a text, and the rest. -/
def takeDigits (cs : List Char) : List Char × List Char :=
  (cs.takeWhile Char.isDigit, cs.dropWhile Char.isDigit)

/-- A point at the head of a text with the digits after it, and the rest. -/
def takeFraction : List Char → Option (List Char) × List Char
  | '.' :: cs => (some (takeDigits cs).1, (takeDigits cs).2)
  | cs => (none, cs)

/-- An exponent part at the head of a text, and the rest. -/
def takeExponent : List Char → Option ExponentText × List Char
  | c :: cs =>
    if c = 'e' ∨ c = 'E' then
      let (sign, afterSign) := takeSign cs
      let (digits, rest) := takeDigits afterSign
      (some ⟨c, sign, digits⟩, rest)
    else (none, c :: cs)
  | [] => (none, [])

namespace ExponentText

/-- The characters of the exponent part. -/
def chars (e : ExponentText) : List Char :=
  e.mark :: (e.sign.toList ++ e.digits)

/-- The power of ten. -/
def value (e : ExponentText) : Int :=
  if e.sign = some '-' then -(digitsValue e.digits : Int) else digitsValue e.digits

end ExponentText

namespace NumberText

/-- The digits on both sides of the point. -/
def mantissa (n : NumberText) : List Char :=
  n.whole ++ n.fraction.getD []

/-- The characters of the number. -/
def chars (n : NumberText) : List Char :=
  n.sign.toList ++ n.whole ++ (n.fraction.map ('.' :: ·)).getD [] ++
    (n.exponent.map ExponentText.chars).getD []

/-- The number at the head of a text, and the rest. -/
def take (cs : List Char) : NumberText × List Char :=
  let (sign, afterSign) := takeSign cs
  let (whole, afterWhole) := takeDigits afterSign
  let (fraction, afterMantissa) := takeFraction afterWhole
  if whole.isEmpty && (fraction.getD []).isEmpty then (⟨sign, whole, fraction, none⟩, afterMantissa)
  else
    let (exponent, rest) := takeExponent afterMantissa
    (⟨sign, whole, fraction, exponent⟩, rest)

/-- Whether a point or an exponent makes it a number rather than an integer. -/
def isFractional (n : NumberText) : Bool :=
  n.fraction.isSome || n.exponent.isSome

def isNegative (n : NumberText) : Bool :=
  n.sign == some '-'

/-- The double that a number with point or exponent stands for. -/
def toFloat (n : NumberText) : Float :=
  Decimal.nearest n.isNegative
    ⟨digitsValue n.mantissa,
      (n.exponent.map ExponentText.value).getD 0 - (n.fraction.getD []).length⟩

/-- The integer that a number without point and exponent stands for. -/
def toInt (n : NumberText) : Int :=
  if n.isNegative then -(digitsValue n.whole : Int) else digitsValue n.whole

/-- The token that the number is, or what is wrong with it. Its characters are read once more, as
one text. -/
def token (n : NumberText) : Except ScanFault Token :=
  if n.mantissa.isEmpty then .error .missingDigit
  else if n.exponent.any fun e => e.digits.isEmpty then .error .incompleteExponent
  else if n.isFractional then
    match readDouble? n.chars with
    | some x =>
      if x.isFinite then .ok (.number x) else .error (.numberRange (String.ofList n.chars))
    | none => .error (.malformedNumber (String.ofList n.chars))
  else
    match readInt64? n.chars with
    | some i => .ok (.integer i)
    | none => .error (.integerRange (String.ofList n.chars))

/-! ## Nothing is lost -/

theorem takeSign_append (cs : List Char) : (takeSign cs).1.toList ++ (takeSign cs).2 = cs := by
  unfold takeSign; split <;> rfl

theorem takeDigits_append (cs : List Char) : (takeDigits cs).1 ++ (takeDigits cs).2 = cs :=
  List.takeWhile_append_dropWhile

theorem takeFraction_append (cs : List Char) :
    ((takeFraction cs).1.map ('.' :: ·)).getD [] ++ (takeFraction cs).2 = cs := by
  unfold takeFraction
  split
  · simp [takeDigits_append]
  · rfl

theorem takeExponent_append (cs : List Char) :
    ((takeExponent cs).1.map ExponentText.chars).getD [] ++ (takeExponent cs).2 = cs := by
  unfold takeExponent
  split
  case h_1 c cs =>
    split
    · simp [ExponentText.chars, takeDigits_append, takeSign_append]
    · rfl
  case h_2 => rfl

theorem append_rest (cs : List Char) : (take cs).1.chars ++ (take cs).2 = cs := by
  unfold take
  dsimp only
  split
  · simp [chars, takeFraction_append, takeDigits_append, takeSign_append]
  · simp [chars, takeExponent_append, takeFraction_append, takeDigits_append, takeSign_append]

end NumberText
end Runbook
