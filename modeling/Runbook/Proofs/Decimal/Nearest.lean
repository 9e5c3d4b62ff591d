import Runbook.Proofs.Decimal.Rounding

/-!
# Nearest doubles

The exact result of an operation on two doubles has more bits than a double, or endless ones. It is
computed with a few bits to spare, and what is below them is summed up in one that says that there
is something. Such a mantissa is enough to round by: what comes out is off by half a unit of the
last place at most.

* `Represents`: the numbers that a mantissa with round bit and sticky bit stands for.
* `Rounds`: a number is near to another one, and is a double unless its exponent is too large.
* `roundWithAccuracy_rounds`: a mantissa with bits to spare is rounded to a near one.
* `add_rounds`, `sub_rounds`, `mul_rounds`, `div_rounds`: so are the exact results of operations.
-/

namespace Runbook.Double

open Float.Model
open Float.Model.UnpackedFloat (Sign ExtendedMantissa Accuracy shiftToExponent
  shiftToTargetExponent roundWithAccuracy accuracyOfFraction decreaseExponent)

/-! ## Round bit and sticky bit -/

/-- The mantissa with its round bit, which is worth a half. -/
def kept (em : ExtendedMantissa) : ℚ :=
  em.mantissa + if em.roundBit then 1 / 2 else 0

/-- The extended mantissa keeps of `y` what rounding depends on: its halves, and whether there is
anything below them. -/
def Represents (em : ExtendedMantissa) (y : ℚ) : Prop :=
  if em.stickyBit then kept em < y ∧ y < kept em + 1 / 2 else y = kept em

/-- Shifting makes the lowest bit of the mantissa the round bit. -/
theorem kept_shiftRightOne (em : ExtendedMantissa) : kept em.shiftRightOne = em.mantissa / 2 := by
  have hdiv : ((em.mantissa % 2 : Nat) : ℚ) + 2 * (em.mantissa / 2 : Nat) = em.mantissa := by
    exact_mod_cast Nat.mod_add_div em.mantissa 2
  rcases Nat.mod_two_eq_zero_or_one em.mantissa with h | h
  · rw [h] at hdiv
    simp [kept, ExtendedMantissa.shiftRightOne, h] at hdiv ⊢
    linarith
  · rw [h] at hdiv
    simp [kept, ExtendedMantissa.shiftRightOne, h] at hdiv ⊢
    linarith

namespace Represents

variable {em : ExtendedMantissa} {y : ℚ}

theorem bounds (h : Represents em y) : (em.mantissa : ℚ) ≤ y ∧ y < em.mantissa + 1 := by
  rcases em with ⟨m, _ | _, _ | _⟩ <;> simp [Represents, kept] at h ⊢ <;> constructor <;> linarith

/-- The rounded mantissa is the nearest integer, or one of the two. -/
theorem rounded (h : Represents em y) : |(em.roundedMantissa : ℚ) - y| ≤ 1 / 2 := by
  rw [abs_le]
  rcases em with ⟨m, _ | _, _ | _⟩ <;>
    simp only [Represents, kept, ExtendedMantissa.roundedMantissa, ExtendedMantissa.accuracy,
      Accuracy.roundToNearestEven, Bool.false_eq_true, if_true, if_false, Nat.cast_add,
      Nat.cast_one, add_zero] at h ⊢
  -- at the very half it depends on the parity, and both ways are as far
  case true.false =>
    rcases Nat.mod_two_eq_zero_or_one m with hparity | hparity <;> rw [hparity] <;> push_cast <;>
      constructor <;> linarith
  all_goals constructor <;> linarith

theorem shiftRightOne (h : Represents em y) : Represents em.shiftRightOne (y / 2) := by
  rw [Represents, kept_shiftRightOne]
  rcases em with ⟨m, _ | _, _ | _⟩
  · have hy : y = m := by simpa [Represents, kept] using h
    simp [ExtendedMantissa.shiftRightOne, hy]
  all_goals
    simp [Represents, kept] at h
    simp only [ExtendedMantissa.shiftRightOne, Bool.or_true, Bool.true_or, if_true]
    constructor <;> linarith

theorem shiftRight (h : Represents em y) (k : Nat) : Represents (em >>> k) (y / 2 ^ k) := by
  change Represents (Nat.repeat ExtendedMantissa.shiftRightOne k em) _
  induction k with
  | zero => simpa [Nat.repeat] using h
  | succ k ih =>
    rw [Nat.repeat, pow_succ, ← div_div]
    exact ih.shiftRightOne

end Represents

theorem represents_exact (m : Nat) :
    Represents (ExtendedMantissa.ofMantissaAndAccuracy m .exact) m := by
  simp [ExtendedMantissa.ofMantissaAndAccuracy, Represents, kept]

/-- What is left of a division tells where the quotient lies. -/
theorem represents_fraction (n : Nat) {d : Nat} (hd : 0 < d) :
    Represents (ExtendedMantissa.ofMantissaAndAccuracy (n / d) (accuracyOfFraction (n % d) d))
      ((n : ℚ) / d) := by
  have hdq : (0 : ℚ) < d := by exact_mod_cast hd
  have hdiv : (n : ℚ) / d = (n / d : Nat) + (n % d : Nat) / d := by
    have heq : ((n % d : Nat) : ℚ) + d * (n / d : Nat) = n := by exact_mod_cast Nat.mod_add_div n d
    field_simp
    linarith
  have hlt : ((n % d : Nat) : ℚ) < d := by exact_mod_cast Nat.mod_lt n hd
  rw [hdiv]
  generalize n % d = r at hlt ⊢
  by_cases hr : r = 0
  · subst hr
    simp [accuracyOfFraction, ExtendedMantissa.ofMantissaAndAccuracy, Represents, kept]
  · have hpos : (0 : ℚ) < r / d := div_pos (by exact_mod_cast Nat.pos_of_ne_zero hr) hdq
    have hone : (r : ℚ) / d < 1 := (div_lt_one hdq).mpr hlt
    rw [accuracyOfFraction, if_neg hr]
    rcases Nat.lt_trichotomy (2 * r) d with h | h | h
    · have hhalf : (r : ℚ) / d < 1 / 2 := by
        rw [div_lt_div_iff₀ hdq two_pos, mul_comm, one_mul]
        exact_mod_cast h
      simp only [Nat.compare_eq_lt.mpr h, ExtendedMantissa.ofMantissaAndAccuracy, Represents, kept]
      constructor <;> simp <;> linarith
    · have hhalf : (r : ℚ) / d = 1 / 2 := by
        rw [div_eq_div_iff hdq.ne' two_ne_zero, mul_comm, one_mul]
        exact_mod_cast h
      simp [Nat.compare_eq_eq.mpr h, ExtendedMantissa.ofMantissaAndAccuracy, Represents, kept,
        hhalf]
    · have hhalf : (1 : ℚ) / 2 < r / d := by
        rw [div_lt_div_iff₀ two_pos hdq, mul_comm (r : ℚ), one_mul]
        exact_mod_cast h
      simp only [Nat.compare_eq_gt.mpr h, ExtendedMantissa.ofMantissaAndAccuracy, Represents, kept]
      constructor <;> simp <;> linarith

/-! ## Rounding -/

/-- The number with the given magnitude. -/
def applySign : Sign → ℚ → ℚ
  | .positive, v => v
  | .negative, v => -v

/-- The number that an unpacked double stands for; infinities and NaN stand for none. -/
def unpackedValue : UnpackedFloat → ℚ
  | .finite s m e _ => applySign s (m * 2 ^ e)
  | _ => 0

@[simp] theorem unpackedValue_zero (s : Sign) : unpackedValue (.zero s) = 0 := rfl

@[simp] theorem unpackedValue_finite (s : Sign) (m : Nat) (e : Int) (hm : 0 < m) :
    unpackedValue (.finite s m e hm) = applySign s (m * 2 ^ e) := rfl

/-- How far from `v` a double near it may be: half a unit of the last place. -/
def tolerance (v : ℚ) : ℚ :=
  |v| / 2 ^ 53 + 2 ^ (-1075 : Int)

/-- A number with mantissa and exponent of a double, but that its exponent may be too large. -/
inductive Shaped : UnpackedFloat → Prop where
  | zero (s : Sign) : Shaped (.zero s)
  | finite {s : Sign} {m : Nat} {e : Int} (hm : 0 < m) :
    m < 2 * fractionSize → -1074 ≤ e → (fractionSize ≤ m ∨ e = -1074) → Shaped (.finite s m e hm)

/-- `u` is near to `v`. -/
structure Rounds (v : ℚ) (u : UnpackedFloat) : Prop where
  shaped : Shaped u
  error : |unpackedValue u - v| ≤ tolerance v

theorem tolerance_nonneg (v : ℚ) : 0 ≤ tolerance v :=
  add_nonneg (by positivity) (two_zpow_pos _).le

/-- What is a number of a double already is rounded to itself. -/
theorem Shaped.rounds {u : UnpackedFloat} (h : Shaped u) : Rounds (unpackedValue u) u := by
  refine ⟨h, ?_⟩
  rw [sub_self, abs_zero]
  exact tolerance_nonneg _

theorem rounds_zero (s : Sign) : Rounds 0 (.zero s) :=
  (Shaped.zero s).rounds

theorem targetExponent_eq (m : Nat) (e : Int) :
    Format.binary64.targetExponent (totalExponent m e) = max ((m.log2 : Int) + e - 52) (-1074) := by
  simp only [Format.targetExponent, totalExponent, Format.mantissaBits, Format.minExponent]
  norm_num
  omega

/-- A carry out of the mantissa is shifted back, and then nothing is lost. -/
theorem carry (r : Nat) (t : Int) (hr : r ≤ 2 * fractionSize) (ht : -1074 ≤ t) :
    (r < 2 * fractionSize ∧ shiftToTargetExponent Format.binary64 r t .exact =
      (⟨r, false, false⟩, t)) ∨
    (r = 2 * fractionSize ∧ shiftToTargetExponent Format.binary64 r t .exact =
      (⟨fractionSize, false, false⟩, t + 1)) := by
  rcases Nat.lt_or_eq_of_le hr with hlt | rfl
  · refine .inl ⟨hlt, ?_⟩
    have hlog : r.log2 ≤ 52 := by
      by_cases hzero : r = 0
      · rw [hzero]
        decide
      · exact Nat.le_of_lt_succ ((Nat.log2_lt hzero).mpr hlt)
    have hshift : (max ((r.log2 : Int) + t - 52) (-1074) - t).toNat = 0 := by omega
    rw [shiftToTargetExponent, targetExponent_eq, shiftToExponent, hshift]
    simp [HShiftRight.hShiftRight, Nat.repeat, ExtendedMantissa.ofMantissaAndAccuracy]
  · refine .inr ⟨rfl, ?_⟩
    have hlog : (2 * fractionSize).log2 = 53 := by decide
    have hshift : (max (((53 : Nat) : Int) + t - 52) (-1074) - t).toNat = 1 := by omega
    rw [shiftToTargetExponent, targetExponent_eq, shiftToExponent, hlog, hshift]
    rfl

theorem applySign_sub (s : Sign) (v w : ℚ) :
    applySign s v - applySign s w = applySign s (v - w) := by
  cases s with
  | positive => rfl
  | negative => exact (neg_sub_neg v w).trans (neg_sub v w).symm

theorem abs_applySign (s : Sign) (v : ℚ) : |applySign s v| = |v| := by
  cases s
  · exact abs_neg v
  · rfl

/-- The error of a rounded mantissa, which is full unless the exponent is the least one. -/
theorem abs_roundedMantissa_sub_le {em : ExtendedMantissa} {z : ℚ} {t : Int}
    (hem : Represents em z) (hfull : t ≠ -1074 → 2 ^ 52 ≤ z) :
    |(em.roundedMantissa : ℚ) * 2 ^ t - z * 2 ^ t| ≤ tolerance (z * 2 ^ t) := by
  have hz : 0 ≤ z := (Nat.cast_nonneg em.mantissa).trans hem.bounds.1
  have hpow : (0 : ℚ) < 2 ^ t := two_zpow_pos t
  have hhalf := mul_le_mul_of_nonneg_right hem.rounded hpow.le
  rw [← sub_mul, abs_mul, abs_of_pos hpow, tolerance, abs_of_nonneg (mul_nonneg hz hpow.le)]
  by_cases hleast : t = -1074
  · have hunit : (2 : ℚ) ^ (-1075 : Int) = 2 ^ t * 2⁻¹ := by
      rw [hleast, ← zpow_sub_one₀ two_ne_zero]
      rfl
    have hrest : 0 ≤ z * 2 ^ t / 2 ^ 53 := by positivity
    linarith
  · have hbits := mul_le_mul_of_nonneg_right (hfull hleast) hpow.le
    have hrest := two_zpow_pos (-1075)
    have hunit : 1 / 2 * 2 ^ t ≤ z * 2 ^ t / 2 ^ 53 := by
      rw [le_div_iff₀ (by positivity)]
      linarith
    linarith

/-- Once the mantissa has as many bits as doubles have at this size, it is rounded. -/
theorem rounds_of_shifted (s : Sign) {m : Nat} {e t : Int} {acc : Accuracy} {z : ℚ}
    {em : ExtendedMantissa} (hem : Represents em z)
    (hshifted : shiftToTargetExponent Format.binary64 m e acc = (em, t)) (ht : -1074 ≤ t)
    (hlt : z < 2 ^ 53) (hfull : t ≠ -1074 → 2 ^ 52 ≤ z) :
    Rounds (applySign s (z * 2 ^ t)) (roundWithAccuracy Format.binary64 s m e acc) := by
  obtain ⟨hlow, hhigh⟩ := abs_le.mp hem.rounded
  have hr : em.roundedMantissa ≤ 2 * fractionSize := by
    have h : (em.roundedMantissa : ℚ) < 2 ^ 53 + 1 := by linarith
    have hnat : em.roundedMantissa < 2 ^ 53 + 1 := by exact_mod_cast h
    exact Nat.le_of_lt_succ hnat
  have hrfull : fractionSize ≤ em.roundedMantissa ∨ t = -1074 := by
    refine or_iff_not_imp_right.mpr fun hleast => ?_
    have h : (2 : ℚ) ^ 52 < em.roundedMantissa + 1 := by linarith [hfull hleast]
    have hnat : 2 ^ 52 < em.roundedMantissa + 1 := by exact_mod_cast h
    exact Nat.le_of_lt_succ hnat
  have herror : |applySign s (em.roundedMantissa * 2 ^ t) - applySign s (z * 2 ^ t)| ≤
      tolerance (applySign s (z * 2 ^ t)) := by
    rw [applySign_sub, abs_applySign, tolerance, abs_applySign]
    exact abs_roundedMantissa_sub_le hem hfull
  rw [roundWithAccuracy, hshifted]
  rcases carry em.roundedMantissa t hr ht with ⟨hsmall, hcarry⟩ | ⟨hlarge, hcarry⟩
  · dsimp only
    simp only [hcarry]
    split
    case isTrue hzero =>
      refine ⟨.zero s, ?_⟩
      have hnone : applySign s ((em.roundedMantissa : ℚ) * 2 ^ t) = 0 := by
        cases s <;> simp [applySign, hzero]
      rw [hnone] at herror
      exact herror
    case isFalse hpos => exact ⟨.finite _ hsmall ht hrfull, herror⟩
  · simp only [hcarry]
    rw [dif_neg (by decide)]
    refine ⟨.finite _ (by decide) (by omega) (.inl le_rfl), ?_⟩
    have hsame : (fractionSize : ℚ) * 2 ^ (t + 1) = em.roundedMantissa * 2 ^ t := by
      rw [hlarge, zpow_add_one₀ two_ne_zero]
      push_cast
      ring
    rw [unpackedValue, hsame]
    exact herror

/-- **Rounding.** A mantissa that has bits to spare, or an exponent that does not need them, is
rounded to the nearest one that doubles have at this size. -/
theorem roundWithAccuracy_rounds (s : Sign) {m : Nat} {e : Int} {acc : Accuracy} {y : ℚ}
    (hy : Represents (ExtendedMantissa.ofMantissaAndAccuracy m acc) y)
    (hm : fractionSize ≤ m ∨ e ≤ -1074) :
    Rounds (applySign s (y * 2 ^ e)) (roundWithAccuracy Format.binary64 s m e acc) := by
  have hmantissa : (ExtendedMantissa.ofMantissaAndAccuracy m acc).mantissa = m := by
    rcases acc with _ | _ | _ | _ <;> rfl
  obtain ⟨hlow, hhigh⟩ := hy.bounds
  rw [hmantissa] at hlow hhigh
  obtain ⟨t, ht⟩ : ∃ t, t = max ((m.log2 : Int) + e - 52) (-1074) := ⟨_, rfl⟩
  have hlog : 52 ≤ m.log2 ∨ e ≤ -1074 :=
    hm.imp_left fun hm => (Nat.le_log2 (Nat.ne_of_gt (Nat.lt_of_lt_of_le (by decide) hm))).mpr hm
  obtain ⟨k, hk⟩ : ∃ k : Nat, t = e + k := ⟨(t - e).toNat, by omega⟩
  obtain ⟨em, hem⟩ : ∃ em, em = ExtendedMantissa.ofMantissaAndAccuracy m acc >>> k := ⟨_, rfl⟩
  have hshifted : shiftToTargetExponent Format.binary64 m e acc = (em, t) := by
    have hamount : (t - e).toNat = k := by omega
    rw [shiftToTargetExponent, targetExponent_eq, ← ht, shiftToExponent, hamount, hem, hk]
  have hrep : Represents em (y / 2 ^ k) := hem ▸ hy.shiftRight k
  have hvalue : y * 2 ^ e = y / 2 ^ k * 2 ^ t := by
    rw [hk, zpow_add₀ two_ne_zero, zpow_natCast]
    field_simp
  have hz : y / 2 ^ k < 2 ^ 53 := by
    have hbits : m + 1 ≤ 2 ^ (53 + k) := by
      calc m + 1 ≤ 2 ^ (m.log2 + 1) := Nat.lt_log2_self
        _ ≤ 2 ^ (53 + k) := Nat.pow_le_pow_right two_pos (by omega)
    have hbitsq : (m : ℚ) + 1 ≤ 2 ^ 53 * 2 ^ k := by
      rw [← pow_add]
      exact_mod_cast hbits
    rw [div_lt_iff₀ (by positivity)]
    linarith
  have hfull : t ≠ -1074 → 2 ^ 52 ≤ y / 2 ^ k := by
    intro hleast
    have hsize : m.log2 = 52 + k := by omega
    have hne : m ≠ 0 := by
      rintro rfl
      rw [Nat.log2_zero] at hsize
      omega
    have hbits : (2 : ℚ) ^ 52 * 2 ^ k ≤ m := by
      rw [← pow_add, ← hsize]
      exact_mod_cast Nat.log2_self_le hne
    rw [le_div_iff₀ (by positivity)]
    linarith
  rw [hvalue]
  exact rounds_of_shifted s hrep hshifted (by omega) hz hfull

/-- Lowering the exponent adds zeros to the mantissa. -/
theorem shiftLeft_mul (m k : Nat) (e : Int) :
    ((m <<< k : Nat) : ℚ) * 2 ^ (e - k) = m * 2 ^ e := by
  rw [Nat.shiftLeft_eq, zpow_sub₀ two_ne_zero, zpow_natCast]
  push_cast
  field_simp

theorem round_rounds (s : Sign) {m : Nat} (e : Int) (hm : 0 < m) :
    Rounds (applySign s (m * 2 ^ e)) (UnpackedFloat.round Format.binary64 s m e) := by
  obtain ⟨t, ht⟩ : ∃ t, t = max ((m.log2 : Int) + e - 52) (-1074) := ⟨_, rfl⟩
  obtain ⟨k, hk⟩ : ∃ k, k = (e - t).toNat := ⟨_, rfl⟩
  have hbits : fractionSize ≤ m <<< k ∨ e - k ≤ -1074 := by
    refine or_iff_not_imp_right.mpr fun hsmall => ?_
    calc fractionSize ≤ 2 ^ (m.log2 + k) := Nat.pow_le_pow_right two_pos (show 52 ≤ _ by omega)
      _ = 2 ^ m.log2 * 2 ^ k := Nat.pow_add ..
      _ ≤ m * 2 ^ k := Nat.mul_le_mul_right _ (Nat.log2_self_le hm.ne')
      _ = m <<< k := (Nat.shiftLeft_eq m k).symm
  rw [UnpackedFloat.round, targetExponent_eq, ← ht, decreaseExponent, ← hk, ← shiftLeft_mul m k e]
  exact roundWithAccuracy_rounds s (represents_exact _) hbits

theorem normalize_rounds (m : Int) (e : Int) (s : Sign) :
    Rounds (m * 2 ^ e) (UnpackedFloat.normalize Format.binary64 m e s) := by
  rw [UnpackedFloat.normalize]
  rcases Int.lt_trichotomy m 0 with h | h | h
  · have hm : (((-m).toNat : Nat) : ℚ) = -m := by
      have hint : ((-m).toNat : Int) = -m := Int.toNat_of_nonneg (by omega)
      exact_mod_cast hint
    have hvalue : (m : ℚ) * 2 ^ e = applySign .negative ((-m).toNat * 2 ^ e) := by
      rw [hm, applySign]
      ring
    rw [Int.compare_eq_lt.mpr h, hvalue]
    exact round_rounds .negative e (by omega)
  · rw [h, Int.cast_zero, zero_mul, Int.compare_eq_eq.mpr rfl]
    exact rounds_zero s
  · have hm : ((m.toNat : Nat) : ℚ) = m := by
      have hint : (m.toNat : Int) = m := Int.toNat_of_nonneg h.le
      exact_mod_cast hint
    have hvalue : (m : ℚ) * 2 ^ e = applySign .positive (m.toNat * 2 ^ e) := by rw [hm, applySign]
    rw [Int.compare_eq_gt.mpr h, hvalue]
    exact round_rounds .positive e (by omega)

/-! ## Operations -/

theorem applySign_mul (s s' : Sign) (v w : ℚ) :
    applySign (s * s') (v * w) = applySign s v * applySign s' w := by
  cases s <;> cases s' <;> simp only [applySign] <;> ring

theorem applySign_div (s s' : Sign) (v w : ℚ) :
    applySign (s / s') (v / w) = applySign s v / applySign s' w := by
  cases s <;> cases s'
  · exact (neg_div_neg_eq v w).symm
  · exact (neg_div w v).symm
  · exact (div_neg v).symm
  · rfl

theorem applySign_mul_right (s : Sign) (v w : ℚ) : applySign s (v * w) = applySign s v * w := by
  cases s
  · exact neg_mul_eq_neg_mul v w
  · rfl

theorem cast_apply (s : Sign) (m : Nat) : ((s.apply m : Int) : ℚ) = applySign s m := by
  cases s <;> simp [Sign.apply, applySign]

theorem decreaseExponent_mul (m : Nat) {e t : Int} (h : t ≤ e) :
    ((decreaseExponent m e t).1 : ℚ) * 2 ^ t = m * 2 ^ e := by
  have hexp : e - (e - t).toNat = t := by omega
  have hmul := shiftLeft_mul m (e - t).toNat e
  rw [hexp] at hmul
  exact hmul

variable {a b : UnpackedFloat}

theorem add_rounds (ha : Shaped a) (hb : Shaped b) :
    Rounds (unpackedValue a + unpackedValue b) (UnpackedFloat.add Format.binary64 a b) := by
  cases ha with
  | zero s =>
    rw [unpackedValue_zero, zero_add]
    cases hb with
    | zero s' =>
      dsimp only [UnpackedFloat.add]
      split <;> exact rounds_zero _
    | finite hm hlt hle hfull => exact (Shaped.finite hm hlt hle hfull).rounds
  | @finite s m e hm hlt hle hfull =>
    cases hb with
    | zero s' =>
      rw [unpackedValue_zero, add_zero]
      exact (Shaped.finite hm hlt hle hfull).rounds
    | @finite s' m' e' hm' =>
      have hsum : unpackedValue (.finite s m e hm) + unpackedValue (.finite s' m' e' hm') =
          ((s.apply (decreaseExponent m e (min e e')).1 +
            s'.apply (decreaseExponent m' e' (min e e')).1 : Int) : ℚ) * 2 ^ min e e' := by
        rw [Int.cast_add, cast_apply, cast_apply, add_mul, ← applySign_mul_right,
          ← applySign_mul_right, decreaseExponent_mul m (min_le_left e e'),
          decreaseExponent_mul m' (min_le_right e e')]
        rfl
      rw [hsum]
      exact normalize_rounds _ _ _

theorem shaped_neg (h : Shaped a) : Shaped a.neg := by
  cases h with
  | zero s => exact .zero (-s)
  | finite hm hlt hle hfull => exact .finite hm hlt hle hfull

theorem unpackedValue_neg (a : UnpackedFloat) : unpackedValue a.neg = -unpackedValue a := by
  rcases a with s | _ | s | ⟨_ | _, m, e, hm⟩
  · exact neg_zero.symm
  · exact neg_zero.symm
  · exact neg_zero.symm
  · exact (neg_neg _).symm
  · rfl

theorem sub_eq_add (a b : UnpackedFloat) :
    UnpackedFloat.sub Format.binary64 a b = UnpackedFloat.add Format.binary64 a b.neg := by
  have happly : ∀ (s : Sign) (n : Int), (-s).apply n = -s.apply n := by
    rintro (_ | _) n
    · exact (Int.neg_neg n).symm
    · rfl
  cases a <;> cases b <;>
    simp [UnpackedFloat.sub, UnpackedFloat.add, UnpackedFloat.neg, happly, Int.sub_eq_add_neg]

theorem sub_rounds (ha : Shaped a) (hb : Shaped b) :
    Rounds (unpackedValue a - unpackedValue b) (UnpackedFloat.sub Format.binary64 a b) := by
  rw [sub_eq_add, sub_eq_add_neg, ← unpackedValue_neg]
  exact add_rounds ha (shaped_neg hb)

theorem mul_rounds (ha : Shaped a) (hb : Shaped b) :
    Rounds (unpackedValue a * unpackedValue b) (UnpackedFloat.mul Format.binary64 a b) := by
  cases ha with
  | zero s =>
    rw [unpackedValue_zero, zero_mul]
    cases hb with
    | zero s' => exact rounds_zero _
    | finite => exact rounds_zero _
  | @finite s m e hm hlt hle hfull =>
    cases hb with
    | zero s' =>
      rw [unpackedValue_zero, mul_zero]
      exact rounds_zero _
    | @finite s' m' e' hm' hlt' hle' hfull' =>
      have hbits : fractionSize ≤ m * m' ∨ e + e' ≤ -1074 := by
        rcases hfull with hfull | hfull
        · exact .inl (hfull.trans (Nat.le_mul_of_pos_right m hm'))
        · rcases hfull' with hfull' | hfull'
          · exact .inl (hfull'.trans (Nat.le_mul_of_pos_left m' hm))
          · exact .inr (by omega)
      have hproduct : unpackedValue (.finite s m e hm) * unpackedValue (.finite s' m' e' hm') =
          applySign (s * s') ((m * m' : Nat) * 2 ^ (e + e')) := by
        rw [unpackedValue_finite, unpackedValue_finite, ← applySign_mul, zpow_add₀ two_ne_zero]
        push_cast
        ring_nf
      rw [hproduct]
      exact roundWithAccuracy_rounds (s * s') (represents_exact _) hbits

theorem div_rounds (ha : Shaped a) (hb : Shaped b) (hne : unpackedValue b ≠ 0) :
    Rounds (unpackedValue a / unpackedValue b) (UnpackedFloat.div Format.binary64 a b) := by
  cases hb with
  | zero => exact absurd rfl hne
  | @finite s' m' e' hm' =>
    cases ha with
    | zero s =>
      rw [unpackedValue_zero, zero_div]
      exact rounds_zero _
    | @finite s m e hm =>
      obtain ⟨t, ht⟩ : ∃ t, t = min (e - e') (Format.binary64.targetExponent
        (totalExponent m e - totalExponent m' e')) := ⟨_, rfl⟩
      obtain ⟨k, hk⟩ : ∃ k, k = (e - e' - t).toNat := ⟨_, rfl⟩
      -- the dividend is shifted by `k` bits, so that the quotient has bits to spare
      have hbits : fractionSize ≤ (m <<< k) / m' ∨ t ≤ -1074 := by
        refine or_iff_not_imp_right.mpr fun hsmall => ?_
        have hlog : m'.log2 + 53 ≤ m.log2 + k := by
          simp only [Format.targetExponent, totalExponent, Format.mantissaBits,
            Format.minExponent] at ht
          norm_num at ht
          omega
        rw [Nat.le_div_iff_mul_le hm', Nat.shiftLeft_eq]
        calc fractionSize * m' ≤ 2 ^ 52 * 2 ^ (m'.log2 + 1) :=
              Nat.mul_le_mul_left _ Nat.lt_log2_self.le
          _ = 2 ^ (m'.log2 + 53) := by rw [← Nat.pow_add, Nat.add_comm, Nat.add_assoc]
          _ ≤ 2 ^ (m.log2 + k) := Nat.pow_le_pow_right two_pos hlog
          _ = 2 ^ m.log2 * 2 ^ k := Nat.pow_add ..
          _ ≤ m * 2 ^ k := Nat.mul_le_mul_right _ (Nat.log2_self_le hm.ne')
      have hquotient : unpackedValue (.finite s m e hm) / unpackedValue (.finite s' m' e' hm') =
          applySign (s / s') ((m <<< k : Nat) / m' * 2 ^ t) := by
        have hexp : e - e' - k = t := by omega
        rw [unpackedValue_finite, unpackedValue_finite, ← applySign_div, div_mul_eq_mul_div, ← hexp,
          shiftLeft_mul, mul_div_mul_comm, mul_div_right_comm, zpow_sub₀ two_ne_zero]
      rw [hquotient]
      have hdiv : UnpackedFloat.div Format.binary64 (.finite s m e hm) (.finite s' m' e' hm') =
          roundWithAccuracy Format.binary64 (s / s') ((m <<< k) / m') t
            (accuracyOfFraction ((m <<< k) % m') m') := by
        rw [UnpackedFloat.div, UnpackedFloat.divCore, ← ht, ← hk]
      rw [hdiv]
      exact roundWithAccuracy_rounds (s / s') (represents_fraction _ hm') hbits

end Runbook.Double
