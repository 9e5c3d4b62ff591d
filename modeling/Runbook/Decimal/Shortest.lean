import Runbook.Decimal.Double

/-!
# Shortest decimals

Doubles in decimal: the shortest decimal that reads back, and the double nearest to a decimal.

A double stands for the interval of reals that round to it. Decimal grids are tried from coarse to
fine; on the first grid with a point in that interval the nearer of the value's two neighbours is
taken, the upper one from the middle. So no shorter decimal reads back, and of the shortest ones
the nearest is written.
-/

namespace Runbook

/-- The number `coefficient · 10 ^ exponent`. -/
structure Decimal where
  coefficient : Nat
  exponent : Int
  deriving Repr, DecidableEq

namespace Decimal

/-! ## Writing -/

/-- Four times the reals that round to `m · 2 ^ e`, in units of `2 ^ e`: half a unit to both sides,
a quarter downwards where the next smaller double is only half a unit away. -/
def window (m : Nat) (e : Int) : Nat × Nat :=
  (if m = Double.fractionSize ∧ -1074 < e then 4 * m - 1 else 4 * m - 2, 4 * m + 2)

/-- The neighbour of `m · 2 ^ e` on the grid of multiples of `10 ^ k` that reads back as it, the
nearer one if both do. The ends of the window read back iff `m` is even. -/
def onGrid? (m : Nat) (e k : Int) : Option Nat :=
  let (lo, hi) := window m e
  let unit := powerRatio 2 e
  let step := powerRatio 10 k
  -- one quarter of a unit is `p / q` grid steps
  let p := unit.1 * step.2
  let q := 4 * unit.2 * step.1
  let value := 4 * m * p
  let below := value / q
  let above := below + 1
  let closed : Bool := m % 2 = 0
  let belowFits : Bool := if closed then lo * p ≤ below * q else lo * p < below * q
  let aboveFits : Bool := if closed then above * q ≤ hi * p else above * q < hi * p
  match belowFits, aboveFits with
  | true, true => some (if value - below * q < above * q - value then below else above)
  | true, false => some below
  | false, true => some above
  | false, false => none

/-- The first grid at or below `10 ^ k` that answers, within `steps` grids. -/
def scanGrids (m : Nat) (e k : Int) : Nat → Decimal
  | 0 => ⟨m, e⟩
  | steps + 1 =>
    match onGrid? m e k with
    | some a => ⟨a, k⟩
    | none => scanGrids m e (k - 1) steps

/-- The shortest decimal that reads back as `m · 2 ^ e`, and of those the nearest. The scan starts
above the value: `log10 2` is a little less than `30103 / 100000`. -/
def shortest (m : Nat) (e : Int) : Decimal :=
  if m = 0 then ⟨0, 0⟩
  else scanGrids m e (((m.log2 : Int) + 1 + e) * 30103 / 100000 + 2) 40

/-- The digits of `n` in base ten. -/
def digits (n : Nat) : String :=
  String.ofList (Nat.toDigits 10 n)

/-- Positional notation, never with an exponent: a point only where there is a fraction, and a zero
before it where there is no integer part. -/
def positional (d : Decimal) : String :=
  let ds := Nat.toDigits 10 d.coefficient
  if 0 ≤ d.exponent then
    String.ofList (if d.coefficient = 0 then ds else ds ++ List.replicate d.exponent.toNat '0')
  else
    let places := (-d.exponent).toNat
    let padded := List.replicate (places + 1 - ds.length) '0' ++ ds
    let whole := padded.length - places
    String.ofList (padded.take whole ++ '.' :: padded.drop whole)

/-- Scientific notation: one digit before the point, and the exponent without plus sign or
padding. -/
def scientific (d : Decimal) : String :=
  match Nat.toDigits 10 d.coefficient with
  | [] => ""
  | c :: cs =>
    let fraction := if cs.isEmpty then [] else '.' :: cs
    String.ofList (c :: fraction) ++ "e" ++ toString (d.exponent + cs.length)

/-! ## Reading -/

/-- The double nearest to `± d`, infinite past the largest one. A decimal far outside the range of
doubles is decided by its size alone, so that no large power is formed. -/
def nearest (negative : Bool) (d : Decimal) : Float :=
  let bits :=
    if d.coefficient = 0 then 0
    else if 400 < d.exponent then Double.infinityBits
    else if d.exponent + d.coefficient.log2 + 1 < -400 then 0
    else
      let (p, q) := powerRatio 10 d.exponent
      Double.roundRatio (d.coefficient * p) q
  Double.withSign negative bits

end Decimal
end Runbook
