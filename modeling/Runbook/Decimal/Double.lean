/-!
# Doubles as numbers

The meaning of a double: its sign, an integer mantissa and a power of two. Back again, the double
nearest to a ratio of two integers, a half going to the even neighbour.

* `parts`: sign, mantissa and exponent, or which of the two non-numbers it is.
* `roundRatio`: the bits of the double nearest to a positive ratio.
* `ofInt`, `floor?`: doubles from and to integers.
-/

namespace Runbook

/-- `b ^ k` as numerator and denominator. -/
def powerRatio (b : Nat) (k : Int) : Nat × Nat :=
  (Nat.pow b k.toNat, Nat.pow b (-k).toNat)

theorem powerRatio_neg_natCast (b n : Nat) : powerRatio b (-n) = (1, Nat.pow b n) := by
  simp [powerRatio]

namespace Double

/-- What a double stands for. -/
inductive Parts where
  | nan
  | infinite (negative : Bool)
  /-- `± mantissa · 2 ^ exponent`. -/
  | finite (negative : Bool) (mantissa : Nat) (exponent : Int)
  deriving Repr, DecidableEq

/-- The weight of the exponent's lowest bit: there are as many fractions to each exponent. -/
def fractionSize : Nat := 0x10000000000000

/-- The weight of the sign bit. -/
def signWeight : Nat := 0x8000000000000000

/-- The bits of positive infinity: past those of every finite magnitude. -/
def infinityBits : Nat := 0x7ff * fractionSize

/-- Sign, mantissa and exponent. The mantissa has 53 bits unless the exponent is the least one. -/
def parts (x : Float) : Parts :=
  let bits := x.toBits.toNat
  let negative : Bool := signWeight ≤ bits
  let biased : Nat := bits / fractionSize % 2048
  let fraction := bits % fractionSize
  if biased = 2047 then
    if fraction = 0 then .infinite negative else .nan
  else if biased = 0 then .finite negative fraction (-1074)
  else .finite negative (fractionSize + fraction) ((biased : Int) - 1075)

/-- The double with magnitude bits `bits` and the given sign. -/
def withSign (negative : Bool) (bits : Nat) : Float :=
  Float.ofBits (UInt64.ofNat (if negative then signWeight + bits else bits))

/-- The greatest `k` with `2 ^ k ≤ num / den`, for positive `num` and `den`. -/
def floorLog2 (num den : Nat) : Int :=
  let k : Int := (num.log2 : Int) - den.log2
  let (p, q) := powerRatio 2 k
  if den * p ≤ num * q then k else k - 1

/-- `num / den` to the nearest integer, a half to the even neighbour. -/
def roundDiv (num den : Nat) : Nat :=
  let q := num / den
  let twice := 2 * (num % den)
  if den < twice ∨ (twice = den ∧ q % 2 = 1) then q + 1 else q

/-- The magnitude bits of the double nearest to `num / den`, for positive `num` and `den`. The
mantissa is counted in units of the last place; a carry out of it raises the exponent, because the
exponent's bits stand above the mantissa's. -/
def roundRatio (num den : Nat) : Nat :=
  let e := max (floorLog2 num den - 52) (-1074)
  let (p, q) := powerRatio 2 e
  min ((e + 1074).toNat * fractionSize + roundDiv (num * q) (den * p)) infinityBits

/-- The double nearest to `i`. -/
def ofInt (i : Int) : Float :=
  withSign (i < 0) (if i = 0 then 0 else roundRatio i.natAbs 1)

/-- The greatest integer that is not above `x`; none for infinities and NaN. -/
def floor? (x : Float) : Option Int :=
  match parts x with
  | .finite negative m e =>
    let (p, q) := powerRatio 2 e
    let signed : Int := if negative then -(m * p : Nat) else (m * p : Nat)
    some (signed.fdiv q)
  | _ => none

/-- The magnitude of `x` when it is an integer, with the sign bit. -/
def integral? (x : Float) : Option (Bool × Nat) :=
  match parts x with
  | .finite negative m e =>
    let (p, q) := powerRatio 2 e
    if m * p % q = 0 then some (negative, m * p / q) else none
  | _ => none

end Double
end Runbook
