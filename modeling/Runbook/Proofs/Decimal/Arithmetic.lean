import Runbook.Proofs.Decimal.Nearest

/-!
# Arithmetic with doubles

The sum, the difference, the product and the quotient of finite doubles are those of the numbers
they stand for, rounded: off by half a unit of the last place, and infinite only if the exact result
is larger than every double.

* `value`: the number that a finite double stands for.
* `unpack_pack_finite`, `pack_overflow`: what the bits of a rounded result stand for.
* `Rounded`: the double for a number, and what it says about the number.
* `rounded_add`, `rounded_sub`, `rounded_mul`, `rounded_div`: the operations.
* `value_ofInt_natCast`: the integers that doubles have.
* `add_of_zero`, `div_of_infinity` and so on: what comes of zeros, infinities and NaN.
-/

namespace Runbook.Double

open Float.Model
open Float.Model.UnpackedFloat (Sign)

/-! ## Doubles and their unpacked form -/

/-- The sign that goes with a sign bit. -/
def signOf (negative : Bool) : Sign :=
  if negative then .negative else .positive

theorem ofBitVec_unpackSign (x : Float) :
    Sign.ofBitVec (@UnpackedFloat.unpackSign Format.binary64 x.toBits.toBitVec) =
      signOf (decide (signWeight ≤ x.toBits.toNat)) := by
  have hsign : @UnpackedFloat.unpackSign Format.binary64 x.toBits.toBitVec = 0#1 ↔
      ¬signWeight ≤ x.toBits.toNat := by
    rw [← BitVec.toNat_inj, toNat_unpackSign, Nat.not_le, ← Nat.div_eq_zero_iff_lt (by decide)]
    rfl
  rw [Sign.ofBitVec, signOf]
  by_cases h : signWeight ≤ x.toBits.toNat <;> simp [hsign, h]

/-- What the bits of a finite double stand for. -/
theorem unpack_of_parts {x : Float} {negative : Bool} {m : Nat} {e : Int}
    (h : parts x = .finite negative m e) :
    x.toModel.unpack =
      if hm : m = 0 then .zero (signOf negative)
      else .finite (signOf negative) m e (Nat.pos_of_ne_zero hm) := by
  have hexponent : (@UnpackedFloat.unpackExponent Format.binary64 x.toBits.toBitVec).toNat =
      x.toBits.toNat / fractionSize % 2048 := toNat_unpackExponent x.toBits.toBitVec
  have hmantissa : (@UnpackedFloat.unpackMantissa Format.binary64 x.toBits.toBitVec).toNat =
      x.toBits.toNat % fractionSize := toNat_unpackMantissa x.toBits.toBitVec
  have hlt : x.toBits.toNat % fractionSize < fractionSize := Nat.mod_lt _ (by decide)
  obtain ⟨rfl, hme⟩ := parts_eq_finite h
  rw [← ofBitVec_unpackSign]
  change UnpackedFloat.unpack Format.binary64 x.toBits.toBitVec = _
  have hspecial : @UnpackedFloat.unpackExponent Format.binary64 x.toBits.toBitVec ≠ -1#_ := by
    intro heq
    rw [heq] at hexponent
    rcases hme with ⟨hzero, -⟩ | ⟨-, hfinite, -⟩
    · exact absurd (hexponent.trans hzero) (by decide)
    · exact hfinite hexponent.symm
  rw [UnpackedFloat.unpack]
  dsimp only
  rw [if_neg hspecial]
  rcases hme with ⟨hzero, rfl, rfl⟩ | ⟨hzero, hfinite, rfl, rfl⟩
  · have hleast : @UnpackedFloat.unpackExponent Format.binary64 x.toBits.toBitVec = 0#_ :=
      BitVec.eq_of_toNat_eq (hexponent.trans hzero)
    rw [if_pos hleast]
    by_cases hm : x.toBits.toNat % fractionSize = 0
    · have hnone : @UnpackedFloat.unpackMantissa Format.binary64 x.toBits.toBitVec = 0#_ :=
        BitVec.eq_of_toNat_eq (hmantissa.trans hm)
      rw [dif_pos hm, dif_pos hnone]
    · have hne : @UnpackedFloat.unpackMantissa Format.binary64 x.toBits.toBitVec ≠ 0#_ := by
        intro heq
        rw [heq] at hmantissa
        exact hm hmantissa.symm
      rw [dif_neg hm, dif_neg hne]
      simp only [UnpackedFloat.finite.injEq, true_and]
      exact ⟨hmantissa, by rw [hexponent, hzero]; rfl⟩
  · have hleast : @UnpackedFloat.unpackExponent Format.binary64 x.toBits.toBitVec ≠ 0#_ := by
      intro heq
      rw [heq] at hexponent
      exact hzero hexponent.symm
    rw [if_neg hleast, dif_neg (by unfold fractionSize; omega)]
    simp only [UnpackedFloat.finite.injEq, true_and]
    constructor
    · rw [BitVec.toNat_append, ← Nat.shiftLeft_add_eq_or_of_lt (BitVec.isLt _), hmantissa]
      rfl
    · rw [hexponent]
      rfl

/-- The number that a finite double stands for. -/
def value (x : Float) : ℚ :=
  unpackedValue x.toModel.unpack

theorem value_of_parts {x : Float} {negative : Bool} {m : Nat} {e : Int}
    (h : parts x = .finite negative m e) : value x = applySign (signOf negative) (m * 2 ^ e) := by
  rw [value, unpack_of_parts h]
  split
  case isTrue hm =>
    rw [hm, Nat.cast_zero, zero_mul]
    cases negative
    · rfl
    · exact neg_zero.symm
  case isFalse => rfl

theorem isFinite_iff_unpack {x : Float} : x.isFinite = true ↔
    (∃ s, x.toModel.unpack = .zero s) ∨ ∃ s m e hm, x.toModel.unpack = .finite s m e hm := by
  change x.toModel.unpack.isFinite = true ↔ _
  cases x.toModel.unpack with
  | zero s => exact iff_of_true rfl (.inl ⟨s, rfl⟩)
  | finite s m e hm => exact iff_of_true rfl (.inr ⟨s, m, e, hm, rfl⟩)
  | infinity | notANumber => simp [UnpackedFloat.isFinite]

theorem shaped_unpack {x : Float} (h : x.isFinite = true) : Shaped x.toModel.unpack := by
  obtain ⟨negative, m, e, hparts⟩ := isFinite_iff_parts.mp h
  obtain ⟨hm, hle, -, hfull⟩ := canonical_of_parts hparts
  rw [unpack_of_parts hparts]
  split
  case isTrue => exact .zero _
  case isFalse hpos => exact .finite _ hm hle hfull

/-- The largest finite double. -/
def largest : ℚ :=
  (2 ^ 53 - 1) * 2 ^ (971 : Int)

theorem abs_value_le {x : Float} (h : x.isFinite = true) : |value x| ≤ largest := by
  obtain ⟨negative, m, e, hparts⟩ := isFinite_iff_parts.mp h
  obtain ⟨hm, hle, hge, hfull⟩ := canonical_of_parts hparts
  have hmq : (m : ℚ) ≤ 2 ^ 53 - 1 := by
    have hnat : m + 1 ≤ 2 ^ 53 := hm
    have hcast : (m : ℚ) + 1 ≤ 2 ^ 53 := by exact_mod_cast hnat
    linarith
  have hmagnitude : (m : ℚ) * 2 ^ e ≤ largest := by
    rw [largest]
    gcongr
    exact one_le_two
  rw [value_of_parts hparts, abs_applySign, abs_of_nonneg (by positivity)]
  exact hmagnitude

/-! ## Packing -/

/-- The bits of a canonical mantissa and exponent are those of their magnitude, below the sign. -/
theorem toNat_pack (s : Sign) {m : Nat} {e : Int} (hm : 0 < m) (h : Canonical m e) :
    (UnpackedFloat.pack Format.binary64 (.finite s m e hm)).toNat =
      s.toBitVec.toNat * signWeight + magnitude m e := by
  obtain ⟨hlt, hle, hge, hfull⟩ := h
  have hbiased : (e + Format.binary64.exponentBias +
      Format.binary64.mantissaBitsWithoutImplicit).toNat = (e + 1075).toNat := by
    simp only [Format.exponentBias]
    norm_num
    omega
  simp only [UnpackedFloat.pack, hbiased, Format.mantissaBits]
  rw [if_neg (by norm_num; omega)]
  unfold magnitude
  rcases Nat.lt_or_ge m fractionSize with hsmall | hlarge
  · have hlog : m.log2 < 52 := (Nat.log2_lt hm.ne').mpr hsmall
    rw [if_neg (by omega), toNat_packComponents]
    simp only [BitVec.toNat_ofNat]
    unfold fractionSize at *
    norm_num
    omega
  · have hlog : m.log2 = 52 := (Nat.log2_eq_iff hm.ne').mpr ⟨hlarge, hlt⟩
    rw [if_pos (by omega), toNat_packComponents]
    simp only [BitVec.toNat_ofNat]
    unfold fractionSize at *
    norm_num
    omega

theorem unpack_pack_finite (s : Sign) {m : Nat} {e : Int} (hm : 0 < m) (h : Canonical m e) :
    (Float.Model.pack (.finite s m e hm)).unpack = .finite s m e hm := by
  have hx : (⟨Float.Model.pack (.finite s m e hm)⟩ : Float) =
      withSign (s == .negative) (magnitude m e) := by
    apply toBits_injective
    apply UInt64.toNat_inj.mp
    rw [toBits_withSign h.magnitude_lt]
    refine (toNat_pack s hm h).trans ?_
    cases s with
    | negative => exact congrArg (· + magnitude m e) (Nat.one_mul signWeight)
    | positive => exact Nat.zero_add _
  have hparts := unpack_of_parts (parts_withSign h (s == .negative))
  rw [← hx, dif_neg hm.ne'] at hparts
  refine hparts.trans ?_
  cases s <;> rfl

/-- Larger exponents than doubles have are those of infinities. -/
theorem pack_overflow (s : Sign) {m : Nat} {e : Int} (hm : 0 < m) (h : 971 < e) :
    Float.Model.pack (.finite s m e hm) = Float.Model.pack (.infinity s) := by
  have hbiased : 2 ^ Format.binary64.exponentBits ≤ (e + Format.binary64.exponentBias +
      Format.binary64.mantissaBitsWithoutImplicit).toNat + 1 := by
    simp only [Format.exponentBias]
    norm_num
    omega
  unfold Float.Model.pack
  simp only [UnpackedFloat.pack, if_pos hbiased]

theorem unpack_pack_infinity (s : Sign) :
    (Float.Model.pack (.infinity s)).unpack = .infinity s := by
  cases s <;> rfl

theorem unpack_pack_zero (s : Sign) : (Float.Model.pack (.zero s)).unpack = .zero s := by
  cases s <;> rfl

theorem unpack_pack_notANumber :
    (Float.Model.pack .notANumber).unpack = .notANumber := by
  rfl

/-! ## Arithmetic -/

/-- A bound that rounding does not carry over the largest double. -/
def limit : ℚ :=
  largest + 2 ^ (900 : Int)

/-- `x` is the double for `v`: near to it, or infinite if `v` is too large. -/
inductive Rounded (v : ℚ) (x : Float) : Prop where
  | finite : x.isFinite = true → |value x - v| ≤ tolerance v → Rounded v x
  | infinite {s : Sign} : x.toModel.unpack = .infinity s → limit < |v| → Rounded v x

namespace Rounded

variable {v : ℚ} {x : Float}

theorem isFinite (h : Rounded v x) (hv : |v| ≤ limit) : x.isFinite = true := by
  cases h with
  | finite hx => exact hx
  | infinite _ hlimit => exact absurd hv (not_le.mpr hlimit)

theorem error (h : Rounded v x) (hx : x.isFinite = true) : |value x - v| ≤ tolerance v := by
  cases h with
  | finite _ herror => exact herror
  | infinite hinfinite =>
    rw [isFinite_iff_unpack, hinfinite] at hx
    rcases hx with ⟨_, hzero⟩ | ⟨_, _, _, _, hfinite⟩
    · cases hzero
    · cases hfinite

end Rounded

/-- What rounds to a mantissa with a larger exponent than doubles have is beyond the limit. -/
theorem limit_lt {v : ℚ} {s : Sign} {m : Nat} {e : Int} {hm : 0 < m} (he : 971 < e)
    (hfull : fractionSize ≤ m) (h : |unpackedValue (.finite s m e hm) - v| ≤ tolerance v) :
    limit < |v| := by
  by_contra hle
  rw [not_lt, limit, largest] at hle
  have hvalue : (2 : ℚ) ^ 52 * 2 ^ (972 : Int) ≤ |unpackedValue (.finite s m e hm)| := by
    rw [unpackedValue_finite, abs_applySign, abs_of_nonneg (by positivity)]
    have hmq : (2 : ℚ) ^ 52 ≤ m := by exact_mod_cast hfull
    gcongr
    · exact one_le_two
    · exact he
  have htriangle := abs_sub_abs_le_abs_sub (unpackedValue (.finite s m e hm)) v
  rw [tolerance] at h
  -- all powers in terms of one
  have hsmall : (2 : ℚ) ^ (-1075 : Int) ≤ 2 ^ (900 : Int) :=
    zpow_le_zpow_right₀ one_le_two (by norm_num)
  have hlarge : (2 : ℚ) ^ (971 : Int) = 2 ^ 71 * 2 ^ (900 : Int) := by
    rw [← zpow_natCast, ← zpow_add₀ two_ne_zero]
    rfl
  have hnext : (2 : ℚ) ^ (972 : Int) = 2 ^ 72 * 2 ^ (900 : Int) := by
    rw [← zpow_natCast, ← zpow_add₀ two_ne_zero]
    rfl
  have hpos := two_zpow_pos 900
  rw [hlarge] at hle
  rw [hnext] at hvalue
  clear hlarge hnext
  generalize (2 : ℚ) ^ (900 : Int) = w at *
  generalize (2 : ℚ) ^ (-1075 : Int) = tiny at *
  generalize |unpackedValue (.finite s m e hm)| = u at *
  generalize |v| = r at *
  have hbound : r / 2 ^ 53 ≤ ((2 ^ 53 - 1) * (2 ^ 71 * w) + w) / 2 ^ 53 := by gcongr
  linarith

theorem rounded_pack {v : ℚ} {u : UnpackedFloat} (h : Rounds v u) {x : Float}
    (hx : x.toModel = Float.Model.pack u) : Rounded v x := by
  obtain ⟨hshape, herror⟩ := h
  cases hshape with
  | zero s =>
    have hunpack : x.toModel.unpack = .zero s := by rw [hx, unpack_pack_zero]
    refine .finite (isFinite_iff_unpack.mpr (.inl ⟨_, hunpack⟩)) ?_
    rw [value, hunpack]
    exact herror
  | @finite s m e hm hlt hle hfull =>
    by_cases he : e ≤ 971
    · have hunpack : x.toModel.unpack = .finite s m e hm := by
        rw [hx, unpack_pack_finite s hm ⟨hlt, hle, he, hfull⟩]
      refine .finite (isFinite_iff_unpack.mpr (.inr ⟨_, _, _, _, hunpack⟩)) ?_
      rw [value, hunpack]
      exact herror
    · have hbeyond : 971 < e := not_le.mp he
      refine .infinite (s := s) ?_ (limit_lt hbeyond (hfull.resolve_right (by omega)) herror)
      rw [hx, pack_overflow s hm hbeyond, unpack_pack_infinity]

section

variable {x y : Float} (hx : x.isFinite = true) (hy : y.isFinite = true)
include hx hy

/-- **Arithmetic with finite doubles is exact arithmetic, rounded.** -/
theorem rounded_add : Rounded (value x + value y) (x + y) :=
  rounded_pack (add_rounds (shaped_unpack hx) (shaped_unpack hy)) rfl

theorem rounded_sub : Rounded (value x - value y) (x - y) :=
  rounded_pack (sub_rounds (shaped_unpack hx) (shaped_unpack hy)) rfl

theorem rounded_mul : Rounded (value x * value y) (x * y) :=
  rounded_pack (mul_rounds (shaped_unpack hx) (shaped_unpack hy)) rfl

theorem rounded_div (hne : value y ≠ 0) : Rounded (value x / value y) (x / y) :=
  rounded_pack (div_rounds (shaped_unpack hx) (shaped_unpack hy) hne) rfl

end

/-! ## Integers -/

section

variable {n : Nat} (hn : n < 2 * fractionSize)
include hn

/-- The mantissa is shifted until its highest bit is where a full one has it. -/
theorem parts_ofInt_natCast : ∃ m e, parts (ofInt n) = .finite false m e ∧ (m : ℚ) * 2 ^ e = n := by
  rcases Nat.eq_zero_or_pos n with rfl | hpos
  · refine ⟨0, -1074, ?_, by rw [Nat.cast_zero, zero_mul]⟩
    have hbits : ofInt (0 : Nat) = withSign false (magnitude 0 (-1074)) := by
      rw [ofInt, decide_eq_false (by decide), if_pos Nat.cast_zero]
      rfl
    rw [hbits]
    exact parts_withSign ⟨by decide, le_rfl, by decide, .inr rfl⟩ false
  have hlog : n.log2 ≤ 52 := Nat.le_of_lt_succ ((Nat.log2_lt hpos.ne').mpr hn)
  obtain ⟨k, hk⟩ : ∃ k, k = 52 - n.log2 := ⟨_, rfl⟩
  have hlow : fractionSize ≤ n <<< k := by
    calc fractionSize = 2 ^ n.log2 * 2 ^ k := by
          rw [← Nat.pow_add, hk, Nat.add_sub_cancel' hlog]
          rfl
      _ ≤ n * 2 ^ k := Nat.mul_le_mul_right _ (Nat.log2_self_le hpos.ne')
      _ = n <<< k := (Nat.shiftLeft_eq n k).symm
  have hhigh : n <<< k < 2 * fractionSize := by
    calc n <<< k = n * 2 ^ k := Nat.shiftLeft_eq n k
      _ < 2 ^ (n.log2 + 1) * 2 ^ k :=
        Nat.mul_lt_mul_of_pos_right Nat.lt_log2_self (Nat.pow_pos two_pos)
      _ = 2 ^ 53 := by rw [← Nat.pow_add]; congr 1; omega
  have hcanonical : Canonical (n <<< k) (0 - k) := ⟨hhigh, by omega, by omega, .inl hlow⟩
  have hvalue : ((n <<< k : Nat) : ℚ) * 2 ^ (0 - k : Int) = n := by
    rw [shiftLeft_mul, zpow_zero, mul_one]
  have hround : roundRatio n 1 = magnitude (n <<< k) (0 - k) := by
    apply roundRatio_of_within hcanonical (Nat.ne_of_gt (Nat.lt_of_lt_of_le (by decide) hlow)) hpos
      one_pos
    rw [Nat.cast_one, div_one, ← hvalue]
    exact within_self _ _
  refine ⟨_, _, ?_, hvalue⟩
  have hbits : ofInt n = withSign false (roundRatio n 1) := by
    rw [ofInt, decide_eq_false (by omega), if_neg (by omega), Int.natAbs_natCast]
  rw [hbits, hround]
  exact parts_withSign hcanonical false

theorem isFinite_ofInt_natCast : (ofInt n).isFinite = true := by
  obtain ⟨m, e, hparts, -⟩ := parts_ofInt_natCast hn
  exact isFinite_iff_parts.mpr ⟨_, _, _, hparts⟩

theorem value_ofInt_natCast : value (ofInt n) = n := by
  obtain ⟨m, e, hparts, hvalue⟩ := parts_ofInt_natCast hn
  rw [value_of_parts hparts, hvalue]
  rfl

theorem unpack_ofInt_natCast (hpos : 0 < n) :
    ∃ m e hm, (ofInt n).toModel.unpack = .finite .positive m e hm := by
  obtain ⟨m, e, hparts, hvalue⟩ := parts_ofInt_natCast hn
  have hm : m ≠ 0 := by
    rintro rfl
    rw [Nat.cast_zero, zero_mul] at hvalue
    exact hpos.ne (Nat.cast_injective (R := ℚ) (by rw [← hvalue, Nat.cast_zero]))
  refine ⟨m, e, Nat.pos_of_ne_zero hm, ?_⟩
  rw [unpack_of_parts hparts, dif_neg hm]
  rfl

end

/-! ## Zeros, infinities and NaN -/

theorem unpack_ofInt_zero : (ofInt (0 : Nat)).toModel.unpack = .zero .positive := by
  rfl

theorem unpack_add (x y : Float) : (x + y).toModel.unpack =
    (Float.Model.pack (.add Format.binary64 x.toModel.unpack y.toModel.unpack)).unpack :=
  rfl

theorem unpack_mul (x y : Float) : (x * y).toModel.unpack =
    (Float.Model.pack (.mul Format.binary64 x.toModel.unpack y.toModel.unpack)).unpack :=
  rfl

theorem unpack_div (x y : Float) : (x / y).toModel.unpack =
    (Float.Model.pack (.div Format.binary64 x.toModel.unpack y.toModel.unpack)).unpack :=
  rfl

/-- A finite double survives unpacking. -/
theorem pack_unpack_of_isFinite {x : Float} (h : x.isFinite = true) :
    Float.Model.pack x.toModel.unpack = x.toModel :=
  congrArg Float.toModel (toBits_injective (toBits_ofBits (isFinite_iff.mp h)))

section

variable {x y : Float} {s : Sign}

/-- Nothing is added by a zero. The sum of two zeros may differ from the first one in its sign. -/
theorem add_of_zero (hx : x.isFinite = true) (hy : y.toModel.unpack = .zero s) :
    (x + y == x) = true := by
  change ((x + y).toModel.unpack.compare x.toModel.unpack == some .eq) = true
  rcases isFinite_iff_unpack.mp hx with ⟨s', hunpack⟩ | ⟨s', m, e, hm, hunpack⟩
  · have hsum : ∃ s'', (x + y).toModel.unpack = .zero s'' := by
      rw [unpack_add, hunpack, hy, UnpackedFloat.add]
      split
      · exact ⟨_, unpack_pack_zero _⟩
      · exact ⟨_, unpack_pack_zero _⟩
    obtain ⟨s'', hsum⟩ := hsum
    rw [hsum, hunpack]
    rfl
  · have hadd : UnpackedFloat.add Format.binary64 x.toModel.unpack y.toModel.unpack =
        x.toModel.unpack := by
      rw [hy, hunpack]
      rfl
    have hsum : (x + y).toModel = x.toModel :=
      (congrArg Float.Model.pack hadd).trans (pack_unpack_of_isFinite hx)
    rw [hsum]
    exact beq_self_of_isFinite hx

theorem add_of_notANumber (hy : y.toModel.unpack = .notANumber) :
    (x + y).toModel.unpack = .notANumber := by
  rw [unpack_add, hy]
  cases x.toModel.unpack <;> exact unpack_pack_notANumber

theorem add_of_infinity (hx : x.isFinite = true) (hy : y.toModel.unpack = .infinity s) :
    (x + y).toModel.unpack = .infinity s := by
  rw [unpack_add, hy]
  rcases isFinite_iff_unpack.mp hx with ⟨_, hunpack⟩ | ⟨_, _, _, _, hunpack⟩
  · rw [hunpack]
    exact unpack_pack_infinity s
  · rw [hunpack]
    exact unpack_pack_infinity s

theorem zero_mul_of_isFinite (hy : y.isFinite = true) :
    ∃ s, (ofInt (0 : Nat) * y).toModel.unpack = .zero s := by
  rw [unpack_mul, unpack_ofInt_zero]
  rcases isFinite_iff_unpack.mp hy with ⟨_, hunpack⟩ | ⟨_, _, _, _, hunpack⟩
  · rw [hunpack]
    exact ⟨_, unpack_pack_zero _⟩
  · rw [hunpack]
    exact ⟨_, unpack_pack_zero _⟩

theorem zero_mul_of_infinity (hy : y.toModel.unpack = .infinity s) :
    (ofInt (0 : Nat) * y).toModel.unpack = .notANumber := by
  rw [unpack_mul, unpack_ofInt_zero, hy]
  exact unpack_pack_notANumber

variable {n : Nat} (hpos : 0 < n) (hn : n < 2 * fractionSize)
include hpos hn

theorem mul_of_infinity (hy : y.toModel.unpack = .infinity s) :
    (ofInt n * y).toModel.unpack = .infinity s := by
  obtain ⟨m, e, hm, hunpack⟩ := unpack_ofInt_natCast hn hpos
  have hsign : Sign.positive * s = s := by cases s <;> rfl
  rw [unpack_mul, hunpack, hy, UnpackedFloat.mul, hsign, unpack_pack_infinity]

theorem div_of_infinity (hx : x.toModel.unpack = .infinity s) :
    (x / ofInt n).toModel.unpack = .infinity s := by
  obtain ⟨m, e, hm, hunpack⟩ := unpack_ofInt_natCast hn hpos
  have hsign : s / Sign.positive = s := by cases s <;> rfl
  rw [unpack_div, hunpack, hx, UnpackedFloat.div, hsign, unpack_pack_infinity]

end

end Runbook.Double
