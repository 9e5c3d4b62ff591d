import Runbook.Decimal.Shortest

/-!
# Number texts

The two texts of a number. The plain text is the shortest decimal in positional notation. The value
text is the one of control files: it always shows that the number is not an integer literal, by
a decimal point or an exponent.
-/

namespace Runbook.Double

/-- A minus sign for a set sign bit, also before zero. -/
def signed (negative : Bool) (magnitude : String) : String :=
  if negative then "-" ++ magnitude else magnitude

/-- Shortest digits in positional notation, for messages and printed matrices. -/
def plainText (x : Float) : String :=
  match parts x with
  | .nan => "NaN"
  | .infinite negative => signed negative "inf"
  | .finite negative m e => signed negative (Decimal.shortest m e).positional

/-- From here on integral values are written in scientific notation. -/
def positionalLimit : Nat := 1000000000000000

/-- An integral value has one decimal below `positionalLimit` and scientific notation from there;
any other number is written plainly. -/
def valueText (x : Float) : String :=
  match integral? x with
  | some (negative, n) =>
    if n < positionalLimit then signed negative (Decimal.digits n ++ ".0")
    else
      match parts x with
      | .finite _ m e => signed negative (Decimal.shortest m e).scientific
      | _ => plainText x
  | none => plainText x

/-! ## Some texts -/

example : plainText 1e-7 = "0.0000001" ∧ plainText (-0.0) = "-0" ∧ plainText 2 = "2" := by
  decide +kernel

example : valueText 3 = "3.0" ∧ valueText (-0.0) = "-0.0" ∧ valueText 1e15 = "1e15" := by
  decide +kernel

example : valueText 1.7976931348623157e308 = "1.7976931348623157e308" := by decide +kernel

end Runbook.Double
