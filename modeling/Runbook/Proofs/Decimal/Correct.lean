import Runbook.Proofs.Decimal.Arithmetic
import Runbook.Proofs.Decimal.ReadBack

/-!
# Correct rounding

A decimal is read as the double nearest to it, and of two that are equally near as the one with the
even mantissa. From half a unit past the largest double on, it is read as an infinity.

* `Correct`: the double that a number is rounded to, by comparison with all others.
* `nearer_or_even`: on the grid of its own exponent the rounded mantissa is the nearest one.
* `correct_of_near`: so is the double of that mantissa among all doubles.
* `Correct.unique`: a number has one correctly rounded double.
* `correct_nearest`: what a decimal is read as.
-/

namespace Runbook.Double

/-- Half a unit of the last place past the largest double. -/
def overflow : ℚ :=
  (2 ^ 53 - 1 / 2) * 2 ^ (971 : Int)

/-- No double is nearer to `w` than `x`; if another one is as near, the mantissa `m` of `x` is
even. -/
def NearestEven (w : ℚ) (x : Float) (m : Nat) : Prop :=
  ∀ y : Float, y.isFinite = true → |value x - w| < |value y - w| ∨
    (|value x - w| = |value y - w| ∧ (value y = value x ∨ m % 2 = 0))

/-- `x` is the correctly rounded double for a number, which is given by its sign and its
magnitude. -/
inductive Correct (negative : Bool) (v : ℚ) (x : Float) : Prop where
  | finite {m : Nat} {e : Int} : parts x = .finite negative m e → v < overflow →
    NearestEven (applySign (signOf negative) v) x m → Correct negative v x
  | infinite : parts x = .infinite negative → overflow ≤ v → Correct negative v x

/-! ## Rounding to integers -/

/-- A rounded quotient is off by a half at most, and by the very half only if it is even. -/
theorem roundDiv_near (num : Nat) {den : Nat} (hd : 0 < den) :
    |(roundDiv num den : ℚ) - num / den| ≤ 1 / 2 ∧
      (|(roundDiv num den : ℚ) - num / den| = 1 / 2 → roundDiv num den % 2 = 0) := by
  have hdq : (0 : ℚ) < den := by exact_mod_cast hd
  have hdiv : (num : ℚ) / den = (num / den : Nat) + (num % den : Nat) / den := by
    have heq : ((num % den : Nat) : ℚ) + den * (num / den : Nat) = num := by
      exact_mod_cast Nat.mod_add_div num den
    field_simp
    linarith
  have hlt : num % den < den := Nat.mod_lt num hd
  rw [hdiv, roundDiv]
  generalize num / den = q at *
  generalize num % den = r at *
  have hr0 : (0 : ℚ) ≤ r / den := by positivity
  have hr1 : (r : ℚ) / den < 1 := (div_lt_one hdq).mpr (by exact_mod_cast hlt)
  have hhalf : (r : ℚ) / den ≤ 1 / 2 ↔ 2 * r ≤ den := by
    rw [div_le_div_iff₀ hdq two_pos, one_mul, mul_comm]
    exact_mod_cast Iff.rfl
  have htie : (r : ℚ) / den = 1 / 2 ↔ 2 * r = den := by
    rw [div_eq_div_iff hdq.ne' two_ne_zero, one_mul, mul_comm]
    exact_mod_cast Iff.rfl
  split
  case isTrue hup =>
    have hge : (1 : ℚ) / 2 ≤ r / den := by
      rcases hup with hup | ⟨hup, -⟩
      · exact (not_le.mp (mt hhalf.mp (by omega))).le
      · exact (htie.mpr hup).ge
    have habs : |((q + 1 : Nat) : ℚ) - (q + r / den)| = 1 - r / den := by
      push_cast
      rw [abs_of_nonneg (by linarith)]
      ring
    rw [habs]
    refine ⟨by linarith, fun heq => ?_⟩
    have := htie.mp (by linarith)
    omega
  case isFalse hdown =>
    have hle : (r : ℚ) / den ≤ 1 / 2 := hhalf.mpr (by omega)
    have habs : |(q : ℚ) - (q + r / den)| = r / den := by
      rw [sub_add_cancel_left, abs_neg, abs_of_nonneg hr0]
    rw [habs]
    refine ⟨hle, fun heq => ?_⟩
    have := htie.mp heq
    omega

section

variable {y : ℚ} {r : Nat} (hr : |(r : ℚ) - y| ≤ 1 / 2) (htie : |(r : ℚ) - y| = 1 / 2 → r % 2 = 0)
include hr htie

/-- No other integer is nearer than the rounded one; if one is as near, the rounded one is even. -/
theorem nearer_or_even (k : Nat) :
    |(r : ℚ) - y| < |k - y| ∨ (|(r : ℚ) - y| = |k - y| ∧ (k = r ∨ r % 2 = 0)) := by
  by_cases hk : k = r
  · exact .inr ⟨by rw [hk], .inl hk⟩
  · have hone : (1 : ℚ) ≤ |(k : ℚ) - r| := by
      have hint : 1 ≤ |(k : Int) - r| := Int.one_le_abs (by omega)
      exact_mod_cast hint
    have htriangle : |(k : ℚ) - r| ≤ |(k : ℚ) - y| + |(r : ℚ) - y| := by
      rw [abs_sub_comm (r : ℚ) y]
      exact abs_sub_le _ _ _
    rcases lt_or_ge |(r : ℚ) - y| |(k : ℚ) - y| with h | h
    · exact .inl h
    · exact .inr ⟨by linarith, .inr (htie (by linarith))⟩

end

/-! ## Rounding to doubles -/

/-- What stands on a coarser grid stands on the finer one. -/
theorem mul_two_zpow_of_le (m : Nat) {t e : Int} (h : t ≤ e) :
    (m : ℚ) * 2 ^ e = (m * 2 ^ (e - t).toNat : Nat) * 2 ^ t := by
  have hexp : e = ((e - t).toNat : Int) + t := by omega
  conv_lhs => rw [hexp, zpow_add₀ two_ne_zero, zpow_natCast]
  push_cast
  ring

/-- A finer grid ends where the full mantissas of the coarser one begin. -/
theorem Canonical.lt_full {m : Nat} {e t : Int} (hc : Canonical m e) (h : e < t) :
    (m : ℚ) * 2 ^ e < 2 ^ 52 * 2 ^ t := by
  have hm : (m : ℚ) < 2 ^ 53 := by exact_mod_cast hc.mantissa_lt
  calc (m : ℚ) * 2 ^ e < 2 ^ 53 * 2 ^ e := mul_lt_mul_of_pos_right hm (two_zpow_pos e)
    _ = 2 ^ 52 * 2 ^ (e + 1) := by rw [zpow_add_one₀ two_ne_zero]; ring
    _ ≤ 2 ^ 52 * 2 ^ t := by gcongr; exacts [one_le_two, h]

section

variable {v : ℚ} {t : Int} {r : Nat} (hr : |(r : ℚ) - v / 2 ^ t| ≤ 1 / 2)
  (htie : |(r : ℚ) - v / 2 ^ t| = 1 / 2 → r % 2 = 0)
include hr htie

theorem nearer_or_even_mul (k : Nat) :
    |(r : ℚ) * 2 ^ t - v| < |k * 2 ^ t - v| ∨
      (|(r : ℚ) * 2 ^ t - v| = |k * 2 ^ t - v| ∧ (k = r ∨ r % 2 = 0)) := by
  have hp := two_zpow_pos t
  have hscaled (k : Nat) : |(k : ℚ) * 2 ^ t - v| = |(k : ℚ) - v / 2 ^ t| * 2 ^ t := by
    rw [← abs_of_pos hp, ← abs_mul, abs_of_pos hp, sub_mul, div_mul_cancel₀ _ hp.ne']
  rw [hscaled, hscaled]
  refine (nearer_or_even hr htie k).imp (fun h => mul_lt_mul_of_pos_right h hp) fun ⟨h, heven⟩ => ?_
  exact ⟨by rw [h], heven⟩

/-- No magnitude of a double is nearer: on a coarser grid it is one of the own grid, and a finer grid
ends below the number. -/
theorem nearer_or_even_magnitude (hfull : t ≠ -1074 → 2 ^ 52 ≤ v / 2 ^ t)
    {m : Nat} {e : Int} (hc : Canonical m e) :
    |(r : ℚ) * 2 ^ t - v| < |m * 2 ^ e - v| ∨
      (|(r : ℚ) * 2 ^ t - v| = |m * 2 ^ e - v| ∧ ((m : ℚ) * 2 ^ e = r * 2 ^ t ∨ r % 2 = 0)) := by
  rcases le_or_gt t e with hcoarse | hfine
  · rw [mul_two_zpow_of_le m hcoarse]
    refine (nearer_or_even_mul hr htie _).imp_right fun ⟨h, heven⟩ => ⟨h, ?_⟩
    exact heven.imp_left fun h => by rw [h]
  · left
    have hp := two_zpow_pos t
    have hbits : (2 : ℚ) ^ 52 * 2 ^ t ≤ v := by
      have := hfull (by have := hc.le_exponent; omega)
      rwa [le_div_iff₀ hp] at this
    have hbelow := hc.lt_full hfine
    have hend : |(r : ℚ) * 2 ^ t - v| ≤ v - 2 ^ 52 * 2 ^ t := by
      obtain ⟨k, hk⟩ : ∃ k : Nat, (k : ℚ) = 2 ^ 52 := ⟨2 ^ 52, by norm_num⟩
      have h := nearer_or_even_mul hr htie k
      rw [hk, abs_sub_comm (2 ^ 52 * 2 ^ t) v, abs_of_nonneg (sub_nonneg.mpr hbits)] at h
      exact h.elim le_of_lt fun h => h.1.le
    have hdistance : |(m : ℚ) * 2 ^ e - v| = v - m * 2 ^ e := by
      rw [abs_sub_comm, abs_of_pos (by linarith)]
    rw [hdistance]
    linarith

/-- Whether the rounded mantissa fits a double depends on the size of the number. -/
theorem lt_overflow_iff (hfull : t ≠ -1074 → 2 ^ 52 ≤ v / 2 ^ t) (hle : -1074 ≤ t)
    (hlt : v / 2 ^ t < 2 ^ 53) :
    v < overflow ↔ (t + 1074).toNat * fractionSize + r < infinityBits := by
  have hp := two_zpow_pos t
  obtain ⟨hlow, hhigh⟩ := abs_le.mp hr
  have hr53 : r ≤ 2 ^ 53 := by
    have hcast : (r : ℚ) < 2 ^ 53 + 1 := by linarith
    have hnat : r < 2 ^ 53 + 1 := by exact_mod_cast hcast
    omega
  unfold overflow
  rcases lt_trichotomy t 971 with hsmall | rfl | hlarge
  · refine iff_of_true ?_ (by unfold infinityBits fractionSize; omega)
    calc v < 2 ^ 53 * 2 ^ t := (div_lt_iff₀ hp).mp hlt
      _ ≤ 2 ^ 53 * 2 ^ (970 : Int) := by gcongr; exacts [one_le_two, by omega]
      _ ≤ (2 ^ 53 - 1 / 2) * (2 ^ (970 : Int) * 2) := by
        have hpos := two_zpow_pos 970
        generalize (2 : ℚ) ^ (970 : Int) = w at hpos ⊢
        linarith
      _ = (2 ^ 53 - 1 / 2) * 2 ^ (971 : Int) := by rw [← zpow_add_one₀ two_ne_zero]; rfl
  · -- at the largest exponent the very half counts as above, because `2 ^ 53 - 1` is odd
    have hbits : (971 + 1074 : Int).toNat * fractionSize + r < infinityBits ↔ r < 2 ^ 53 := by
      unfold infinityBits fractionSize
      omega
    rw [hbits, ← div_lt_iff₀ hp]
    constructor
    · intro hv
      have hcast : (r : ℚ) < 2 ^ 53 := by linarith
      exact_mod_cast hcast
    · intro hr
      have hcast : (r : ℚ) + 1 ≤ 2 ^ 53 := by exact_mod_cast hr
      refine lt_of_le_of_ne (by linarith) fun heq => ?_
      have hmax : (r : ℚ) = 2 ^ 53 - 1 := by linarith
      have heven := htie (by rw [hmax, heq]; norm_num)
      have hnat : r + 1 = 2 ^ 53 := by
        have : (r : ℚ) + 1 = 2 ^ 53 := by linarith
        exact_mod_cast this
      omega
  · have hbig := (le_div_iff₀ hp).mp (hfull (by omega))
    have hrbig : 2 ^ 52 ≤ r := by
      have hcast : (2 : ℚ) ^ 52 < r + 1 := by linarith [hfull (by omega)]
      have hnat : 2 ^ 52 < r + 1 := by exact_mod_cast hcast
      omega
    refine iff_of_false (not_lt.mpr ?_) (by unfold infinityBits fractionSize; omega)
    calc (2 ^ 53 - 1 / 2 : ℚ) * 2 ^ (971 : Int) ≤ 2 ^ 52 * (2 ^ (971 : Int) * 2) := by
          have hpos := two_zpow_pos 971
          generalize (2 : ℚ) ^ (971 : Int) = w at hpos ⊢
          linarith
      _ = 2 ^ 52 * 2 ^ (972 : Int) := by rw [← zpow_add_one₀ two_ne_zero]; rfl
      _ ≤ 2 ^ 52 * 2 ^ t := by gcongr; exacts [one_le_two, hlarge]
      _ ≤ v := hbig

end

/-- A rounded mantissa is worth as much as a canonical one with these bits: a carry out of it raises
the exponent. -/
theorem exists_canonical {t : Int} {r : Nat} (hle : -1074 ≤ t) (hr : r ≤ 2 * fractionSize)
    (hfull : t ≠ -1074 → fractionSize ≤ r)
    (hbits : (t + 1074).toNat * fractionSize + r < infinityBits) :
    ∃ m e, Canonical m e ∧ magnitude m e = (t + 1074).toNat * fractionSize + r ∧
      (m : ℚ) * 2 ^ e = r * 2 ^ t ∧ (r % 2 = 0 → m % 2 = 0) := by
  unfold infinityBits at hbits
  rcases Nat.lt_or_eq_of_le hr with hlt | rfl
  · refine ⟨r, t, ⟨hlt, hle, ?_, ?_⟩, rfl, rfl, id⟩
    · by_contra hlarge
      have := hfull (by omega)
      unfold fractionSize at *
      omega
    · exact (em (t = -1074)).elim .inr fun h => .inl (hfull h)
  · refine ⟨fractionSize, t + 1, ⟨by decide, by omega, ?_, .inl le_rfl⟩, ?_, ?_, fun _ => rfl⟩
    · unfold fractionSize at *
      omega
    · have hexp : (t + 1 + 1074).toNat = (t + 1074).toNat + 1 := by omega
      rw [magnitude, hexp]
      ring
    · rw [zpow_add_one₀ two_ne_zero]
      push_cast
      ring

/-- What holds of the magnitudes holds of the doubles of both signs. -/
theorem nearer_or_even_signed {v a : ℚ} {even : Prop} (hv : 0 ≤ v) (hzero : v = 0 → a = 0)
    (h : ∀ m e, Canonical m e → |a - v| < |m * 2 ^ e - v| ∨
      (|a - v| = |m * 2 ^ e - v| ∧ ((m : ℚ) * 2 ^ e = a ∨ even)))
    (negative : Bool) {y : Float} (hy : y.isFinite = true) :
    let s := signOf negative
    |applySign s a - applySign s v| < |value y - applySign s v| ∨
      (|applySign s a - applySign s v| = |value y - applySign s v| ∧
        (value y = applySign s a ∨ even)) := by
  obtain ⟨negative', m, e, hparts⟩ := isFinite_iff_parts.mp hy
  have hm := h m e (canonical_of_parts hparts)
  have hu : (0 : ℚ) ≤ m * 2 ^ e := by positivity
  rw [value_of_parts hparts]
  simp only [applySign_sub, abs_applySign]
  generalize (m : ℚ) * 2 ^ e = u at *
  by_cases hsame : negative' = negative
  · subst hsame
    rw [applySign_sub, abs_applySign]
    exact hm.imp_right fun ⟨heq, heven⟩ => ⟨heq, heven.imp_left fun h => by rw [h]⟩
  · -- a double of the other sign is farther, unless it is a zero
    have hother : |applySign (signOf negative') u - applySign (signOf negative) v| = u + v := by
      have hsum : |u + v| = u + v := abs_of_nonneg (add_nonneg hu hv)
      cases negative <;> cases negative' <;> try exact absurd rfl hsame
      · rw [← hsum, ← abs_neg]
        congr 1
        simp only [applySign, signOf, if_true, Bool.false_eq_true, if_false]
        ring
      · rw [← hsum]
        congr 1
        simp only [applySign, signOf, if_true, Bool.false_eq_true, if_false]
        ring
    have hfar : |u - v| ≤ u + v := abs_le.mpr ⟨by linarith, by linarith⟩
    rw [hother]
    rcases hm with hm | ⟨heq, heven⟩
    · exact .inl (hm.trans_le hfar)
    · rcases hfar.lt_or_eq with hfar | hfar
      · exact .inl (heq.trans_lt hfar)
      · have hu0 : u = 0 := by
          rcases abs_choice (u - v) with h | h
          · have hv0 : v = 0 := by linarith
            rw [hzero hv0, hv0, sub_self, abs_zero, sub_zero, abs_of_nonneg hu] at heq
            exact heq.symm
          · linarith
        refine .inr ⟨heq.trans hfar, heven.imp_left fun h => ?_⟩
        rw [← h, hu0]
        cases negative <;> cases negative' <;> simp [applySign, signOf]

theorem parts_infinity (negative : Bool) :
    parts (withSign negative infinityBits) = .infinite negative := by
  cases negative <;> decide +kernel

/-- **The double of the rounded mantissa is the correct one**, with the sign of the number. -/
theorem correct_of_near {v : ℚ} {t : Int} {r : Nat} (hr : |(r : ℚ) - v / 2 ^ t| ≤ 1 / 2)
    (htie : |(r : ℚ) - v / 2 ^ t| = 1 / 2 → r % 2 = 0)
    (hfull : t ≠ -1074 → 2 ^ 52 ≤ v / 2 ^ t) (hle : -1074 ≤ t) (hlt : v / 2 ^ t < 2 ^ 53)
    (hv : 0 ≤ v) (negative : Bool) :
    Correct negative v
      (withSign negative (min ((t + 1074).toNat * fractionSize + r) infinityBits)) := by
  obtain ⟨hlow, hhigh⟩ := abs_le.mp hr
  have hr53 : r ≤ 2 * fractionSize := by
    have hcast : (r : ℚ) < 2 ^ 53 + 1 := by linarith
    have hnat : r < 2 ^ 53 + 1 := by exact_mod_cast hcast
    exact Nat.le_of_lt_succ hnat
  have hrfull (ht : t ≠ -1074) : fractionSize ≤ r := by
    have hcast : (2 : ℚ) ^ 52 < r + 1 := by linarith [hfull ht]
    have hnat : 2 ^ 52 < r + 1 := by exact_mod_cast hcast
    exact Nat.le_of_lt_succ hnat
  have hbits := lt_overflow_iff hr htie hfull hle hlt
  rcases lt_or_ge v overflow with hover | hover
  · obtain ⟨m, e, hc, hmagnitude, hvalue, heven⟩ :=
      exists_canonical hle hr53 hrfull (hbits.mp hover)
    have hparts := parts_withSign hc negative
    have hzero : v = 0 → (r : ℚ) * 2 ^ t = 0 := by
      rintro rfl
      have hhalf : (r : ℚ) ≤ 1 / 2 := by rwa [zero_div, sub_zero] at hhigh
      have hnone : r = 0 := by
        by_contra hne
        have : (1 : ℚ) ≤ r := by exact_mod_cast Nat.one_le_iff_ne_zero.mpr hne
        linarith
      rw [hnone, Nat.cast_zero, zero_mul]
    rw [← hmagnitude, min_eq_left hc.magnitude_lt.le]
    refine .finite hparts hover fun y hy => ?_
    rw [value_of_parts hparts, hvalue]
    refine (nearer_or_even_signed hv hzero
      (fun _ _ hc => nearer_or_even_magnitude hr htie hfull hc) negative hy).imp_right ?_
    exact fun ⟨heq, h⟩ => ⟨heq, h.imp_right heven⟩
  · rw [min_eq_right (not_lt.mp fun h => not_lt.mpr hover (hbits.mpr h))]
    exact .infinite (parts_infinity negative) hover

/-- The same of a ratio, in units of the last place that its double has. -/
theorem correct_roundRatio {num den : Nat} (hn : 0 < num) (hd : 0 < den) (negative : Bool) :
    Correct negative ((num : ℚ) / den) (withSign negative (roundRatio num den)) := by
  obtain ⟨hl1, hl2⟩ := floorLog2_bounds hn hd
  have hv : (0 : ℚ) ≤ num / den := by positivity
  unfold roundRatio
  simp only
  obtain ⟨t, ht⟩ : ∃ t, t = max (floorLog2 num den - 52) (-1074) := ⟨_, rfl⟩
  rw [← ht]
  have hp := two_zpow_pos t
  obtain ⟨hr, htie⟩ := roundDiv_near (num * (powerRatio 2 t).2)
    (Nat.mul_pos hd (powerRatio_pos two_pos t).1)
  rw [ratio_scaled num hd t] at hr htie
  refine correct_of_near hr htie (fun hleast => ?_) (by omega) ?_ hv negative
  · rw [le_div_iff₀ hp, ← zpow_natCast, ← zpow_add₀ two_ne_zero]
    refine le_trans (zpow_le_zpow_right₀ one_le_two ?_) hl1
    push_cast
    omega
  · rw [div_lt_iff₀ hp, ← zpow_natCast, ← zpow_add₀ two_ne_zero]
    refine hl2.trans_le (zpow_le_zpow_right₀ one_le_two ?_)
    push_cast
    omega

/-! ## Uniqueness -/

section

variable {m m' : Nat} {e e' : Int} (hc : Canonical m e) (hc' : Canonical m' e')
include hc hc'

theorem Canonical.lt_of_exponent_lt (h : e < e') : (m : ℚ) * 2 ^ e < m' * 2 ^ e' := by
  have hm' : (2 : ℚ) ^ 52 ≤ m' := by
    have hfull := hc'.full.resolve_right (by have := hc.le_exponent; omega)
    exact_mod_cast hfull
  calc (m : ℚ) * 2 ^ e < 2 ^ 52 * 2 ^ e' := hc.lt_full h
    _ ≤ m' * 2 ^ e' := mul_le_mul_of_nonneg_right hm' (two_zpow_pos e').le

/-- A magnitude has one canonical mantissa and exponent. -/
theorem Canonical.eq_of_value_eq (h : (m : ℚ) * 2 ^ e = m' * 2 ^ e') : m = m' ∧ e = e' := by
  rcases lt_trichotomy e e' with he | rfl | he
  · exact absurd h (hc.lt_of_exponent_lt hc' he).ne
  · refine ⟨?_, rfl⟩
    exact_mod_cast mul_right_cancel₀ (two_zpow_pos e).ne' h
  · exact absurd h (hc'.lt_of_exponent_lt hc he).ne'

/-- Between two even mantissas there is an odd one. -/
theorem Canonical.exists_between (hm : m % 2 = 0) (hm' : m' % 2 = 0)
    (h : (m : ℚ) * 2 ^ e < m' * 2 ^ e') :
    Canonical (m + 1) e ∧ ((m + 1 : Nat) : ℚ) * 2 ^ e < m' * 2 ^ e' := by
  obtain ⟨hlt, hle, hge, hfull⟩ := id hc
  have hnext : Canonical (m + 1) e := by
    refine ⟨?_, hle, hge, hfull.imp_left fun h => h.trans (Nat.le_succ m)⟩
    unfold fractionSize at *
    omega
  refine ⟨hnext, ?_⟩
  rcases lt_or_ge e' e with he | he
  · exact absurd h (hc'.lt_of_exponent_lt hc he).not_gt
  · have heven : m' * 2 ^ (e' - e).toNat % 2 = 0 := by rw [Nat.mul_mod, hm', Nat.zero_mul]
    rw [mul_two_zpow_of_le m' he] at h ⊢
    have hlt : m < m' * 2 ^ (e' - e).toNat := by
      exact_mod_cast lt_of_mul_lt_mul_right h (two_zpow_pos e).le
    refine mul_lt_mul_of_pos_right ?_ (two_zpow_pos e)
    exact_mod_cast (show m + 1 < m' * 2 ^ (e' - e).toNat by omega)

end

theorem eq_of_parts_infinite {x : Float} {negative : Bool} (h : parts x = .infinite negative) :
    x = withSign negative infinityBits := by
  unfold parts at h
  simp only at h
  split at h
  case isFalse => split at h <;> cases h
  case isTrue hexponent =>
    split at h
    case isFalse => cases h
    case isTrue hfraction =>
      obtain rfl := Parts.infinite.inj h
      have hbits : ∀ negative : Bool, (withSign negative infinityBits).toBits.toNat =
          if negative then signWeight + infinityBits else infinityBits := by decide +kernel
      apply toBits_injective
      apply UInt64.toNat_inj.mp
      rw [hbits]
      have hlt := x.toBits.toNat_lt
      simp only [decide_eq_true_eq]
      unfold infinityBits signWeight fractionSize at *
      split <;> omega

/-- Two nearest doubles would have even mantissas, with the number half way between them, and a
double with an odd mantissa would be nearer. -/
theorem not_lt_of_nearest {negative : Bool} {v : ℚ} {x y : Float} {m m' : Nat} {e e' : Int}
    (hpx : parts x = .finite negative m e) (hpy : parts y = .finite negative m' e')
    (hx : NearestEven (applySign (signOf negative) v) x m)
    (hy : NearestEven (applySign (signOf negative) v) y m') :
    ¬(m : ℚ) * 2 ^ e < m' * 2 ^ e' := by
  intro hlt
  have herror {z : Float} {k : Nat} {i : Int} (hz : parts z = .finite negative k i) :
      |value z - applySign (signOf negative) v| = |(k : ℚ) * 2 ^ i - v| := by
    rw [value_of_parts hz, applySign_sub, abs_applySign]
  have hfinite {z : Float} {k : Nat} {i : Int} (hz : parts z = .finite negative k i) :
      z.isFinite = true := isFinite_iff_parts.mpr ⟨_, _, _, hz⟩
  have hne : value y ≠ value x := by
    intro heq
    rw [value_of_parts hpx, value_of_parts hpy] at heq
    cases negative
    · exact hlt.ne' heq
    · exact hlt.ne' (neg_inj.mp heq)
  have hxy := hx y (hfinite hpy)
  have hyx := hy x (hfinite hpx)
  rw [herror hpx, herror hpy] at hxy hyx
  obtain ⟨heq, hm⟩ := hxy.resolve_left fun h => by
    rcases hyx with h' | ⟨h', -⟩
    · exact lt_asymm h h'
    · exact h.ne' h'
  have hm' := (hyx.resolve_left heq.not_gt).2
  obtain ⟨hc, hbetween⟩ := (canonical_of_parts hpx).exists_between (canonical_of_parts hpy)
    (hm.resolve_left hne) (hm'.resolve_left hne.symm) hlt
  have hnext := parts_withSign hc negative
  have hcloser := hx _ (hfinite hnext)
  rw [herror hpx, herror hnext] at hcloser
  have hstep : (m : ℚ) * 2 ^ e < (m + 1 : Nat) * 2 ^ e :=
    mul_lt_mul_of_pos_right (by exact_mod_cast Nat.lt_succ_self m) (two_zpow_pos e)
  have hmiddle : v = ((m : ℚ) * 2 ^ e + m' * 2 ^ e') / 2 := by
    rcases abs_eq_abs.mp heq with h | h
    · exact absurd (sub_left_inj.mp h) hlt.ne
    · linarith
  have hinside : |((m + 1 : Nat) : ℚ) * 2 ^ e - v| < |(m : ℚ) * 2 ^ e - v| := by
    rw [abs_of_neg (show (m : ℚ) * 2 ^ e - v < 0 by linarith), abs_lt]
    constructor <;> linarith
  rcases hcloser with h | ⟨h, -⟩
  · exact lt_asymm h hinside
  · exact hinside.ne' h

/-- **A number has one correctly rounded double.** -/
theorem Correct.unique {negative : Bool} {v : ℚ} {x y : Float} (hx : Correct negative v x)
    (hy : Correct negative v y) : x = y := by
  cases hx with
  | infinite hpx hover =>
    cases hy with
    | infinite hpy => rw [eq_of_parts_infinite hpx, eq_of_parts_infinite hpy]
    | finite _ hlt => exact absurd hover (not_le.mpr hlt)
  | finite hpx hlt hx =>
    cases hy with
    | infinite _ hover => exact absurd hover (not_le.mpr hlt)
    | finite hpy _ hy =>
      have hvalue := le_antisymm (not_lt.mp (not_lt_of_nearest hpy hpx hy hx))
        (not_lt.mp (not_lt_of_nearest hpx hpy hx hy))
      obtain ⟨rfl, rfl⟩ := (canonical_of_parts hpx).eq_of_value_eq (canonical_of_parts hpy) hvalue
      rw [← withSign_of_parts hpx, ← withSign_of_parts hpy]

end Runbook.Double

namespace Runbook.Decimal

open Double

/-- What is decided to be too large is past the largest double. -/
theorem overflow_le_of_large {d : Decimal} (hlarge : 400 < d.exponent)
    (hne : d.coefficient ≠ 0) : overflow ≤ d.value := by
  have hone : (1 : ℚ) ≤ d.coefficient := by exact_mod_cast Nat.one_le_iff_ne_zero.mpr hne
  calc overflow ≤ 2 ^ (53 : Int) * 2 ^ (971 : Int) := by
        unfold overflow
        gcongr
        norm_num
    _ = 2 ^ (1024 : Int) := by rw [← zpow_add₀ two_ne_zero]; rfl
    _ ≤ 2 ^ (3 * 400 : Int) := zpow_le_zpow_right₀ one_le_two (by norm_num)
    _ = (2 ^ (3 : Int)) ^ (400 : Int) := zpow_mul _ _ _
    _ ≤ 10 ^ (400 : Int) := zpow_le_zpow_left₀ (by norm_num) (by norm_num) (by norm_num)
    _ ≤ 10 ^ d.exponent := zpow_le_zpow_right₀ (by norm_num) hlarge.le
    _ ≤ d.coefficient * 10 ^ d.exponent := le_mul_of_one_le_left (ten_zpow_pos _).le hone

/-- What is less than half of the least double is rounded to a zero. -/
theorem correct_zero {v : ℚ} (hv : 0 ≤ v) (hless : v < 1 / 2 * 2 ^ (-1074 : Int))
    (negative : Bool) : Correct negative v (withSign negative 0) := by
  have hsmall : v / 2 ^ (-1074 : Int) < 1 / 2 := (div_lt_iff₀ (two_zpow_pos _)).mpr hless
  have hnonneg : 0 ≤ v / 2 ^ (-1074 : Int) := div_nonneg hv (two_zpow_pos _).le
  have habs : |((0 : Nat) : ℚ) - v / 2 ^ (-1074 : Int)| = v / 2 ^ (-1074 : Int) := by
    rw [Nat.cast_zero, zero_sub, abs_neg, abs_of_nonneg hnonneg]
  have h := correct_of_near (r := 0) (by rw [habs]; exact hsmall.le) (fun _ => rfl)
    (fun h => absurd rfl h) le_rfl (hsmall.trans (by norm_num)) hv negative
  exact h

/-- **A decimal is read as the correctly rounded double.** -/
theorem correct_nearest (negative : Bool) (d : Decimal) :
    Correct negative d.value (nearest negative d) := by
  have hv : 0 ≤ d.value := mul_nonneg (Nat.cast_nonneg _) (ten_zpow_pos _).le
  unfold nearest
  by_cases hzero : d.coefficient = 0
  · have hnone : d.value = 0 := by rw [value, hzero, Nat.cast_zero, zero_mul]
    simp only [if_pos hzero]
    exact correct_zero hv (by rw [hnone]; positivity) negative
  simp only [if_neg hzero]
  by_cases hlarge : 400 < d.exponent
  · rw [if_pos hlarge]
    exact .infinite (parts_infinity negative) (overflow_le_of_large hlarge hzero)
  rw [if_neg hlarge]
  by_cases hsmall : d.exponent + d.coefficient.log2 + 1 < -400
  · rw [if_pos hsmall]
    have hless : d.value < 10 ^ (-400 : Int) :=
      (value_lt hzero).trans_le (zpow_le_zpow_right₀ (by norm_num) hsmall.le)
    exact correct_zero hv (hless.trans_le ten_zpow_le_half_least) negative
  rw [if_neg hsmall]
  obtain ⟨hp, hq⟩ := powerRatio_pos (b := 10) (by norm_num) d.exponent
  rw [value_eq_ratio]
  exact correct_roundRatio (Nat.mul_pos (Nat.pos_of_ne_zero hzero) hp) hq negative

end Runbook.Decimal
