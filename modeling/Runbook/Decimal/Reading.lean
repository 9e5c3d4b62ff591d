import Runbook.Decimal.Shortest

/-!
# Numbers read from texts

The integer or the double that a text spells from its first character to its last, if it spells one.
An integer is a row of digits, of 64 bits with its sign. A double may have a point on either side of
its digits or among them, and an exponent; and there are words for the infinities and for NaN.

* `readInt64?`: the integer. `readDouble?`: the double.
-/

namespace Runbook

/-- A sign at the head of a text, and the rest. -/
def takeSign : List Char → Option Char × List Char
  | '+' :: cs => (some '+', cs)
  | '-' :: cs => (some '-', cs)
  | cs => (none, cs)

/-- The number that digits spell in base ten. -/
def digitsValue (ds : List Char) : Nat :=
  ds.foldl (fun n d => 10 * n + (d.toNat - '0'.toNat)) 0

/-- The number that a row of digits spells. -/
def readNat? (cs : List Char) : Option Nat :=
  if !cs.isEmpty && cs.all Char.isDigit then some (digitsValue cs) else none

/-- The integer that digits after an optional sign spell. -/
def readInt? (cs : List Char) : Option Int :=
  let (sign, digits) := takeSign cs
  (readNat? digits).map fun n : Nat => if sign = some '-' then -(n : Int) else (n : Int)

/-- The same, within 64 bits. -/
def readInt64? (cs : List Char) : Option Int64 :=
  (readInt? cs).bind fun i =>
    if Int64.minValue.toInt ≤ i ∧ i ≤ Int64.maxValue.toInt then some (Int64.ofInt i) else none

/-- What stands before the first character that `p` holds of and, if there is one, what stands
after it. -/
def cutAt (p : Char → Bool) (cs : List Char) : List Char × Option (List Char) :=
  (cs.takeWhile (!p ·), (cs.dropWhile (!p ·)).tail?)

/-- The decimal that a text without a sign spells. -/
def readDecimal? (cs : List Char) : Option Decimal :=
  let (mantissa, exponent) := cutAt (fun c => c == 'e' || c == 'E') cs
  let (whole, fraction) := cutAt (· == '.') mantissa
  let places := fraction.getD []
  (readNat? (whole ++ places)).bind fun coefficient =>
    (exponent.elim (some 0) readInt?).map fun power => ⟨coefficient, power - places.length⟩

/-- The double that a text spells: the nearest one to a decimal, or what a word says. -/
def readDouble? (cs : List Char) : Option Float :=
  let (sign, magnitude) := takeSign cs
  let negative := sign == some '-'
  let word := magnitude.map Char.toLower
  if word = ['i', 'n', 'f'] ∨ word = ['i', 'n', 'f', 'i', 'n', 'i', 't', 'y'] then
    some (Double.withSign negative Double.infinityBits)
  else if word = ['n', 'a', 'n'] then
    some (Double.withSign negative (Double.infinityBits + Double.fractionSize / 2))
  else (readDecimal? magnitude).map (Decimal.nearest negative)

end Runbook
