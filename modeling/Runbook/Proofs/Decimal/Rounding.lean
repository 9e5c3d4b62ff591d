import Runbook.Decimal.Shortest
import Runbook.Proofs.Decimal.Bits

/-!
# Rounding to the nearest double

Which ratios round to a given double: those within half a unit of its last place, a quarter below
where the next smaller double is nearer, the ends of this interval only for an even mantissa.

* `Within m e v`: the number `v` lies in the interval of `m · 2 ^ e`.
* `roundRatio_of_within`: a ratio in the interval rounds to the double.
* `nearest_of_within`: so does a decimal, through the bounds that keep its powers small.
-/

namespace Runbook

theorem powerRatio_pos {b : Nat} (hb : 0 < b) (k : Int) :
    0 < (powerRatio b k).1 ∧ 0 < (powerRatio b k).2 :=
  ⟨Nat.pow_pos hb, Nat.pow_pos hb⟩

/-- Numerator and denominator make up the power. -/
theorem powerRatio_div {b : Nat} (hb : 0 < b) (k : Int) :
    ((powerRatio b k).1 : ℚ) / (powerRatio b k).2 = (b : ℚ) ^ k := by
  have hb' : (b : ℚ) ≠ 0 := by exact_mod_cast hb.ne'
  unfold powerRatio
  rcases Int.eq_nat_or_neg k with ⟨n, rfl | rfl⟩
  · simp
  · simp [zpow_neg]

namespace Double

/-! ## Logarithm and quotient -/

theorem two_zpow_pos (k : Int) : (0 : ℚ) < 2 ^ k := by positivity

theorem log2_bounds {n : Nat} (hn : 0 < n) :
    (2 : ℚ) ^ (n.log2 : Int) ≤ n ∧ (n : ℚ) < 2 ^ ((n.log2 : Int) + 1) := by
  constructor
  · rw [zpow_natCast]
    exact_mod_cast Nat.log2_self_le hn.ne'
  · rw [← Nat.cast_one (R := Int), ← Nat.cast_add, zpow_natCast]
    exact_mod_cast Nat.lt_log2_self

theorem floorLog2_bounds {num den : Nat} (hn : 0 < num) (hd : 0 < den) :
    (2 : ℚ) ^ floorLog2 num den ≤ (num : ℚ) / den ∧
      (num : ℚ) / den < 2 ^ (floorLog2 num den + 1) := by
  have hdq : (0 : ℚ) < den := by exact_mod_cast hd
  obtain ⟨hn1, hn2⟩ := log2_bounds hn
  obtain ⟨hd1, hd2⟩ := log2_bounds hd
  -- the quotient of the bounds leaves two candidates
  have hlow : (2 : ℚ) ^ ((num.log2 : Int) - den.log2 - 1) ≤ (num : ℚ) / den := by
    rw [le_div_iff₀ hdq]
    calc (2 : ℚ) ^ ((num.log2 : Int) - den.log2 - 1) * den
        ≤ 2 ^ ((num.log2 : Int) - den.log2 - 1) * 2 ^ ((den.log2 : Int) + 1) := by gcongr
      _ = 2 ^ (num.log2 : Int) := by rw [← zpow_add₀ two_ne_zero]; congr 1; ring
      _ ≤ num := hn1
  have hhigh : (num : ℚ) / den < 2 ^ ((num.log2 : Int) - den.log2 + 1) := by
    rw [div_lt_iff₀ hdq]
    calc (num : ℚ) < 2 ^ ((num.log2 : Int) + 1) := hn2
      _ = 2 ^ ((num.log2 : Int) - den.log2 + 1) * 2 ^ (den.log2 : Int) := by
        rw [← zpow_add₀ two_ne_zero]; congr 1; ring
      _ ≤ 2 ^ ((num.log2 : Int) - den.log2 + 1) * den := by gcongr
  unfold floorLog2
  simp only
  generalize (num.log2 : Int) - den.log2 = k at *
  have hp := powerRatio_div two_pos k
  obtain ⟨hp1, hp2⟩ := powerRatio_pos two_pos k
  generalize powerRatio 2 k = r at *
  have hr2 : (0 : ℚ) < r.2 := by exact_mod_cast hp2
  have hcmp : den * r.1 ≤ num * r.2 ↔ (2 : ℚ) ^ k ≤ (num : ℚ) / den := by
    have hp' : (r.1 : ℚ) / r.2 = 2 ^ k := hp
    rw [← hp', div_le_div_iff₀ hr2 hdq, mul_comm (r.1 : ℚ)]
    exact_mod_cast Iff.rfl
  split
  case isTrue h => exact ⟨hcmp.mp h, hhigh⟩
  case isFalse h => exact ⟨hlow, by rw [sub_add_cancel]; exact not_le.mp (mt hcmp.mpr h)⟩

/-- A quotient within half of `m` rounds to `m`, from the very half only if `m` is even. -/
theorem roundDiv_eq {num den m : Nat} (hd : 0 < den) (hlo : 2 * m * den ≤ 2 * num + den)
    (hhi : 2 * num ≤ 2 * m * den + den)
    (htie : m % 2 = 0 ∨ (2 * m * den < 2 * num + den ∧ 2 * num < 2 * m * den + den)) :
    roundDiv num den = m := by
  unfold roundDiv
  have hsplit := Nat.div_add_mod num den
  have hmod := Nat.mod_lt num hd
  generalize num / den = q at *
  generalize num % den = r at *
  subst hsplit
  have hle : m ≤ q + 1 := by
    by_contra h
    have : (q + 2) * den ≤ m * den := Nat.mul_le_mul_right _ (by omega)
    nlinarith
  have hge : q ≤ m := by
    by_contra h
    have : (m + 1) * den ≤ q * den := Nat.mul_le_mul_right _ (by omega)
    nlinarith
  simp only
  rcases Nat.lt_or_ge q m with hlt | hge'
  · obtain rfl : m = q + 1 := by omega
    have h1 : den ≤ 2 * r := by nlinarith
    rw [if_pos]
    rcases htie with h | ⟨h, -⟩
    · rcases Nat.lt_or_ge den (2 * r) with h2 | h2
      · exact .inl h2
      · exact .inr ⟨by omega, by omega⟩
    · left; nlinarith
  · obtain rfl : m = q := by omega
    have h1 : 2 * r ≤ den := by nlinarith
    rw [if_neg]
    rintro (h2 | ⟨h2, h3⟩)
    · omega
    · rcases htie with h | ⟨-, h⟩
      · omega
      · nlinarith

/-- The same, in numbers. -/
theorem roundDiv_eq_of_near {num den m : Nat} (hd : 0 < den)
    (hlo : (m : ℚ) - 1 / 2 ≤ (num : ℚ) / den) (hhi : (num : ℚ) / den ≤ m + 1 / 2)
    (htie : m % 2 = 0 ∨ ((m : ℚ) - 1 / 2 < (num : ℚ) / den ∧ (num : ℚ) / den < m + 1 / 2)) :
    roundDiv num den = m := by
  have hdq : (0 : ℚ) < den := by exact_mod_cast hd
  rw [le_div_iff₀ hdq] at hlo
  rw [div_le_iff₀ hdq] at hhi
  rw [lt_div_iff₀ hdq, div_lt_iff₀ hdq] at htie
  apply roundDiv_eq hd
  · have : (2 * m * den : ℚ) ≤ 2 * num + den := by linarith
    exact_mod_cast this
  · have : (2 * num : ℚ) ≤ 2 * m * den + den := by linarith
    exact_mod_cast this
  · refine htie.imp_right fun ⟨h1, h2⟩ => ⟨?_, ?_⟩
    · have : (2 * m * den : ℚ) < 2 * num + den := by linarith
      exact_mod_cast this
    · have : (2 * num : ℚ) < 2 * m * den + den := by linarith
      exact_mod_cast this

/-! ## The interval of a double -/

/-- `v` lies in the window of `m · 2 ^ e`; its ends belong to it iff `m` is even. -/
def Within (m : Nat) (e : Int) (v : ℚ) : Prop :=
  if m % 2 = 0 then
    ((Decimal.window m e).1 : ℚ) * 2 ^ e ≤ 4 * v ∧ 4 * v ≤ ((Decimal.window m e).2 : ℚ) * 2 ^ e
  else
    ((Decimal.window m e).1 : ℚ) * 2 ^ e < 4 * v ∧ 4 * v < ((Decimal.window m e).2 : ℚ) * 2 ^ e

variable {m : Nat} {e : Int} {v : ℚ}

/-- At most half a unit away, and less than that unless `m` is even. -/
theorem Within.near (h : Within m e v) (hm : m ≠ 0) :
    ((m : ℚ) - 1 / 2 ≤ v / 2 ^ e ∧ v / 2 ^ e ≤ m + 1 / 2) ∧
      (m % 2 = 0 ∨ ((m : ℚ) - 1 / 2 < v / 2 ^ e ∧ v / 2 ^ e < m + 1 / 2)) := by
  have hp := two_zpow_pos e
  have hlo : (4 * m - 2 : ℚ) ≤ (Decimal.window m e).1 := by
    unfold Decimal.window
    simp only
    split
    · rw [Nat.cast_sub (by omega)]; push_cast; linarith
    · rw [Nat.cast_sub (by omega)]; push_cast; linarith
  have hhi : ((Decimal.window m e).2 : ℚ) = 4 * m + 2 := by
    unfold Decimal.window; push_cast; rfl
  rw [le_div_iff₀ hp, div_le_iff₀ hp, lt_div_iff₀ hp, div_lt_iff₀ hp]
  unfold Within at h
  rw [hhi] at h
  have hlo' := mul_le_mul_of_nonneg_right hlo hp.le
  split at h
  case isTrue heven => exact ⟨⟨by linarith [h.1], by linarith [h.2]⟩, .inl heven⟩
  case isFalse =>
    have h1 : (m - 1 / 2 : ℚ) * 2 ^ e < v := by linarith [h.1]
    have h2 : v < (m + 1 / 2 : ℚ) * 2 ^ e := by linarith [h.2]
    exact ⟨⟨h1.le, h2.le⟩, .inr ⟨h1, h2⟩⟩

/-- The lower end is a quarter away where the next smaller double is half a unit away. -/
theorem Within.near_boundary (h : Within fractionSize e v) (he : -1074 < e) :
    (fractionSize : ℚ) - 1 / 4 ≤ v / 2 ^ e := by
  have hp := two_zpow_pos e
  have hlo : (Decimal.window fractionSize e).1 = 4 * fractionSize - 1 := by
    unfold Decimal.window
    rw [if_pos ⟨rfl, he⟩]
  unfold Within at h
  rw [if_pos (by decide), hlo] at h
  rw [le_div_iff₀ hp]
  have : ((4 * fractionSize - 1 : Nat) : ℚ) = 4 * fractionSize - 1 := by
    rw [Nat.cast_sub (by decide)]; push_cast; rfl
  rw [this] at h
  linarith [h.1]

theorem Within.pos (h : Within m e v) (hm : m ≠ 0) : 0 < v := by
  have hp := two_zpow_pos e
  have h1 := (h.near hm).1.1
  rw [le_div_iff₀ hp] at h1
  have : (1 : ℚ) ≤ m := by exact_mod_cast Nat.one_le_iff_ne_zero.mpr hm
  nlinarith

theorem within_self (m : Nat) (e : Int) : Within m e (m * 2 ^ e) := by
  have hp := two_zpow_pos e
  have hlo : (m ≠ 0 → ((Decimal.window m e).1 : ℚ) < 4 * m) ∧
      ((Decimal.window m e).1 : ℚ) ≤ 4 * m := by
    unfold Decimal.window
    constructor
    · intro hm
      split <;> · norm_cast; omega
    · split <;> · norm_cast; omega
  have hhi : (4 * m : ℚ) < (Decimal.window m e).2 := by
    unfold Decimal.window; push_cast; linarith
  unfold Within
  split
  case isTrue => constructor <;> nlinarith [hlo.2]
  case isFalse h =>
    have := hlo.1 (by rintro rfl; simp at h)
    constructor <;> nlinarith

/-! ## Rounding -/

/-- The exponent that rounding counts in: that of the double, or one less right below a power. -/
theorem roundRatio_exponent {num den : Nat} (hc : Canonical m e) (hm : m ≠ 0) (hn : 0 < num)
    (hd : 0 < den) (h : Within m e ((num : ℚ) / den)) :
    max (floorLog2 num den - 52) (-1074) = e ∨
      (m = fractionSize ∧ -1074 < e ∧ max (floorLog2 num den - 52) (-1074) = e - 1 ∧
        (num : ℚ) / den < fractionSize * 2 ^ e) := by
  obtain ⟨hl1, hl2⟩ := floorLog2_bounds hn hd
  obtain ⟨⟨hlo, hhi⟩, htie⟩ := h.near hm
  have hp := two_zpow_pos e
  have hfs : (fractionSize : ℚ) = 2 ^ (52 : Int) := by norm_num [fractionSize]
  generalize floorLog2 num den = l at *
  generalize (num : ℚ) / den = v at *
  have hupper : v < 2 ^ (53 + e) := by
    have hlt : v / 2 ^ e < 2 ^ (53 : Int) := by
      rcases Nat.lt_or_ge m (2 * fractionSize - 1) with hlt | hge
      · have : (m : ℚ) + 1 ≤ 2 ^ (53 : Int) - 1 := by
          have : m + 1 ≤ 2 ^ 53 - 1 := by unfold fractionSize at hlt; omega
          have : ((m + 1 : Nat) : ℚ) ≤ ((2 ^ 53 - 1 : Nat) : ℚ) := by exact_mod_cast this
          norm_num at this ⊢
          linarith
        linarith
      · have hm' : m = 2 ^ 53 - 1 := by
          have := hc.mantissa_lt; unfold fractionSize at *; omega
        have h2 := (htie.resolve_left (by omega)).2
        have : (m : ℚ) = 2 ^ (53 : Int) - 1 := by rw [hm']; norm_num
        linarith
    rw [div_lt_iff₀ hp, ← zpow_add₀ two_ne_zero] at hlt
    exact hlt
  have hl_upper : l < 53 + e :=
    (zpow_lt_zpow_iff_right₀ (by norm_num)).mp (hl1.trans_lt hupper)
  rcases hc.full with hfull | hleast
  · by_cases hge : (2 : ℚ) ^ (52 + e) ≤ v
    · have : 52 + e < l + 1 := (zpow_lt_zpow_iff_right₀ (by norm_num)).mp (hge.trans_lt hl2)
      have := hc.le_exponent
      left; omega
    · have hv : v < fractionSize * 2 ^ e := by
        rw [hfs, ← zpow_add₀ two_ne_zero]; exact not_le.mp hge
      have hmeq : m = fractionSize := by
        by_contra hne
        have : ((fractionSize + 1 : Nat) : ℚ) ≤ m := by
          exact_mod_cast Nat.lt_of_le_of_ne hfull (Ne.symm hne)
        rw [le_div_iff₀ hp] at hlo
        push_cast at this
        nlinarith
      subst hmeq
      by_cases he : e = -1074
      · left; omega
      · have he' : -1074 < e := by have := hc.le_exponent; omega
        have h51 : (2 : ℚ) ^ (51 + e) ≤ v := by
          have hb := h.near_boundary he'
          rw [le_div_iff₀ hp] at hb
          calc (2 : ℚ) ^ (51 + e) = 2 ^ (51 : Int) * 2 ^ e := zpow_add₀ two_ne_zero _ _
            _ ≤ (fractionSize - 1 / 4) * 2 ^ e := by
              gcongr; rw [hfs]; norm_num
            _ ≤ v := hb
        have : 51 + e < l + 1 := (zpow_lt_zpow_iff_right₀ (by norm_num)).mp (h51.trans_lt hl2)
        have : l < 52 + e :=
          (zpow_lt_zpow_iff_right₀ (by norm_num)).mp (hl1.trans_lt (not_le.mp hge))
        right
        exact ⟨rfl, he', by omega, hv⟩
  · left; omega

/-- In units of `2 ^ k` the ratio is what `roundRatio` divides. -/
theorem ratio_scaled (num : Nat) {den : Nat} (hd : 0 < den) (k : Int) :
    ((num * (powerRatio 2 k).2 : Nat) : ℚ) / (den * (powerRatio 2 k).1 : Nat) =
      (num : ℚ) / den / 2 ^ k := by
  obtain ⟨h1, h2⟩ := powerRatio_pos two_pos k
  have hpower := powerRatio_div two_pos k
  rw [Nat.cast_ofNat] at hpower
  rw [← hpower]
  have h1' : ((powerRatio 2 k).1 : ℚ) ≠ 0 := by exact_mod_cast h1.ne'
  have h2' : ((powerRatio 2 k).2 : ℚ) ≠ 0 := by exact_mod_cast h2.ne'
  have hd' : (den : ℚ) ≠ 0 := by exact_mod_cast hd.ne'
  push_cast
  field_simp

/-- **A ratio in the interval of a double rounds to it.** -/
theorem roundRatio_of_within {num den : Nat} (hc : Canonical m e) (hm : m ≠ 0) (hn : 0 < num)
    (hd : 0 < den) (h : Within m e ((num : ℚ) / den)) :
    roundRatio num den = magnitude m e := by
  have hscaled := ratio_scaled num hd
  have hden (k : Int) : 0 < den * (powerRatio 2 k).1 := Nat.mul_pos hd (powerRatio_pos two_pos k).1
  obtain ⟨⟨hlo, hhi⟩, htie⟩ := h.near hm
  have hlt := hc.magnitude_lt
  unfold roundRatio
  simp only
  rcases roundRatio_exponent hc hm hn hd h with he | ⟨rfl, hleast, he, hv⟩
  · rw [he, roundDiv_eq_of_near (m := m) (hden e) (by rwa [hscaled]) (by rwa [hscaled])
      (by rwa [hscaled])]
    exact min_eq_left hlt.le
  · have hp := two_zpow_pos e
    have hhalf : (2 : ℚ) ^ (e - 1) = 2 ^ e / 2 := by rw [zpow_sub_one₀ two_ne_zero]; ring
    have hb := h.near_boundary hleast
    have hround : roundDiv (num * (powerRatio 2 (e - 1)).2) (den * (powerRatio 2 (e - 1)).1) =
        2 * fractionSize := by
      apply roundDiv_eq_of_near (hden _) _ _ (.inl (by decide))
      · rw [hscaled, hhalf, div_div_eq_mul_div, mul_div_right_comm]
        push_cast
        linarith
      · rw [hscaled, hhalf, div_div_eq_mul_div, mul_div_right_comm]
        rw [← div_lt_iff₀ hp] at hv
        push_cast
        linarith
    rw [he, hround]
    have : (e - 1 + 1074).toNat * fractionSize + 2 * fractionSize = magnitude fractionSize e := by
      unfold magnitude
      have : (e + 1074).toNat = (e - 1 + 1074).toNat + 1 := by omega
      rw [this]
      ring
    rw [this]
    exact min_eq_left hlt.le

end Double
end Runbook
