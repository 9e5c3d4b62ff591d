import Runbook.Proofs.Decimal.Rounding

/-!
# Shortest decimals read back

The decimal that is written for a double is read as that double.

* `onGrid?_within`, `onGrid?_isSome`: a grid answers with a decimal in the interval, and a fine
  enough grid answers.
* `shortest_within`: forty grids are enough, so the shortest decimal lies in the interval.
* `nearest_shortest`: it reads back.
* `nearest_integer`: an integer with one decimal reads back.
* `shortest_exponent_neg`: a double with a fraction is written with one.
-/

namespace Runbook.Decimal

open Double

/-- The number that the decimal stands for. -/
def value (d : Decimal) : ℚ :=
  d.coefficient * 10 ^ d.exponent

theorem ten_zpow_pos (k : Int) : (0 : ℚ) < 10 ^ k := by positivity

variable {m : Nat} {e : Int}

/-- `30103 / 100000` is close enough to `log10 2` to lose no more than eight digits. -/
theorem ten_zpow_le_two_zpow {x k : Int} (hl : -1100 ≤ x) (hu : x ≤ 1100)
    (h : 100000 * k ≤ 30103 * x) : (10 : ℚ) ^ (k - 8) ≤ 2 ^ x := by
  have h10 := ten_zpow_pos (k - 8)
  have h2 := two_zpow_pos x
  rcases Int.le_total 0 x with hx | hx
  · -- `10 ^ 3 ≤ 2 ^ 10`
    rw [← pow_le_pow_iff_left₀ h10.le h2.le (n := 10) (by norm_num)]
    calc ((10 : ℚ) ^ (k - 8)) ^ 10 = 10 ^ (10 * (k - 8)) := by
          rw [mul_comm, zpow_mul]; rfl
      _ ≤ 10 ^ (3 * x) := zpow_le_zpow_right₀ (by norm_num) (by omega)
      _ = (10 ^ (3 : Int)) ^ x := zpow_mul _ _ _
      _ ≤ (2 ^ (10 : Int)) ^ x := zpow_le_zpow_left₀ hx (by norm_num) (by norm_num)
      _ = (2 ^ x) ^ 10 := by rw [← zpow_mul, mul_comm, zpow_mul]; rfl
  · -- `2 ^ 13 ≤ 10 ^ 4`
    rw [← pow_le_pow_iff_left₀ h10.le h2.le (n := 13) (by norm_num)]
    calc ((10 : ℚ) ^ (k - 8)) ^ 13 = 10 ^ (13 * (k - 8)) := by
          rw [mul_comm, zpow_mul]; rfl
      _ ≤ 10 ^ (4 * x) := zpow_le_zpow_right₀ (by norm_num) (by omega)
      _ = ((10 ^ (4 : Int)) ^ (-x))⁻¹ := by rw [zpow_mul, zpow_neg, inv_inv]
      _ ≤ ((2 ^ (13 : Int)) ^ (-x))⁻¹ := by
        gcongr ?_⁻¹
        exact zpow_le_zpow_left₀ (by omega) (by norm_num) (by norm_num)
      _ = (2 ^ x) ^ 13 := by
        rw [zpow_neg, inv_inv, ← zpow_mul, mul_comm, zpow_mul]; rfl

/-! ## Reading a decimal in the interval -/

theorem value_lt {d : Decimal} (hne : d.coefficient ≠ 0) :
    d.value < 10 ^ (d.exponent + d.coefficient.log2 + 1) := by
  have hcoefficient : (d.coefficient : ℚ) < 10 ^ ((d.coefficient.log2 : Int) + 1) :=
    (log2_bounds (Nat.pos_of_ne_zero hne)).2.trans_le
      (zpow_le_zpow_left₀ (by omega) (by norm_num) (by norm_num))
  calc d.value < 10 ^ ((d.coefficient.log2 : Int) + 1) * 10 ^ d.exponent :=
        mul_lt_mul_of_pos_right hcoefficient (ten_zpow_pos _)
    _ = 10 ^ (d.exponent + d.coefficient.log2 + 1) := by
      rw [← zpow_add₀ (by norm_num)]; congr 1; ring

/-- What is decided to be too small is less than half of the least double. -/
theorem ten_zpow_le_half_least : (10 : ℚ) ^ (-400 : Int) ≤ 1 / 2 * 2 ^ (-1074 : Int) := by
  calc (10 : ℚ) ^ (-400 : Int) ≤ 10 ^ (-324 - 8 : Int) :=
        zpow_le_zpow_right₀ (by norm_num) (by norm_num)
    _ ≤ 2 ^ (-1075 : Int) := ten_zpow_le_two_zpow (by norm_num) (by norm_num) (by norm_num)
    _ = 1 / 2 * 2 ^ (-1074 : Int) := by
      rw [show (-1075 : Int) = -1074 - 1 by norm_num, zpow_sub_one₀ two_ne_zero]; ring

/-- Numerator and denominator that a decimal is rounded from. -/
theorem value_eq_ratio (d : Decimal) :
    d.value = (d.coefficient * (powerRatio 10 d.exponent).1 : Nat) /
      (powerRatio 10 d.exponent).2 := by
  have hpower := powerRatio_div (b := 10) (by norm_num) d.exponent
  rw [Nat.cast_ofNat] at hpower
  rw [value, ← hpower, Nat.cast_mul, mul_div_assoc]

/-- A decimal near a double is neither so large nor so small that it is decided by its size. -/
theorem size_of_within {d : Decimal} (hc : Canonical m e) (hm : m ≠ 0)
    (h : Within m e d.value) : d.coefficient ≠ 0 ∧ -400 ≤ d.exponent + d.coefficient.log2 + 1 := by
  have hpos := h.pos hm
  have hcoeff : d.coefficient ≠ 0 := by
    intro h0
    rw [value, h0] at hpos
    simp at hpos
  refine ⟨hcoeff, ?_⟩
  have hlo := (h.near hm).1.1
  rw [le_div_iff₀ (two_zpow_pos e)] at hlo
  have hm1 : (1 : ℚ) ≤ m := by exact_mod_cast Nat.one_le_iff_ne_zero.mpr hm
  have hlt : (10 : ℚ) ^ (-400 : Int) < 10 ^ (d.exponent + d.coefficient.log2 + 1) := by
    calc (10 : ℚ) ^ (-400 : Int) ≤ 1 / 2 * 2 ^ (-1074 : Int) := ten_zpow_le_half_least
      _ ≤ 1 / 2 * 2 ^ e := by gcongr; exacts [by norm_num, hc.le_exponent]
      _ ≤ (m - 1 / 2) * 2 ^ e := by gcongr; linarith
      _ ≤ d.value := hlo
      _ < 10 ^ (d.exponent + d.coefficient.log2 + 1) := value_lt hcoeff
  exact ((zpow_lt_zpow_iff_right₀ (by norm_num)).mp hlt).le

/-- **A decimal in the interval of a double is read as that double.** -/
theorem nearest_of_within {d : Decimal} (hc : Canonical m e) (hm : m ≠ 0) (hd : d.exponent ≤ 400)
    (h : Within m e d.value) (negative : Bool) :
    nearest negative d = withSign negative (magnitude m e) := by
  obtain ⟨hcoeff, hsize⟩ := size_of_within hc hm h
  obtain ⟨hp1, hp2⟩ := powerRatio_pos (b := 10) (by norm_num) d.exponent
  unfold nearest
  simp only
  rw [if_neg hcoeff, if_neg (by omega), if_neg (by omega)]
  congr 1
  refine roundRatio_of_within hc hm (Nat.mul_pos (Nat.pos_of_ne_zero hcoeff) hp1) hp2 ?_
  rwa [← value_eq_ratio]

theorem nearest_zero (negative : Bool) (k : Int) :
    nearest negative ⟨0, k⟩ = withSign negative 0 := by
  simp [nearest]

/-! ## One grid -/

/-- Quarters of a unit as multiples of the grid, numerator and denominator. -/
def quarter (e k : Int) : Nat × Nat :=
  ((powerRatio 2 e).1 * (powerRatio 10 k).2, 4 * (powerRatio 2 e).2 * (powerRatio 10 k).1)

theorem quarter_pos (e k : Int) : 0 < (quarter e k).1 ∧ 0 < (quarter e k).2 := by
  obtain ⟨hu1, hu2⟩ := powerRatio_pos (b := 2) (by norm_num) e
  obtain ⟨hs1, hs2⟩ := powerRatio_pos (b := 10) (by norm_num) k
  exact ⟨Nat.mul_pos hu1 hs2, Nat.mul_pos (Nat.mul_pos (by norm_num) hu2) hs1⟩

/-- Comparing in `Nat` is comparing `a` quarters of a unit with `b` grid steps. -/
theorem mul_quarter_le_iff (a b : Nat) (e k : Int) :
    (a * (quarter e k).1 ≤ b * (quarter e k).2 ↔ (a : ℚ) * 2 ^ e ≤ 4 * (b * 10 ^ k)) ∧
      (a * (quarter e k).1 < b * (quarter e k).2 ↔ (a : ℚ) * 2 ^ e < 4 * (b * 10 ^ k)) := by
  have h2 := powerRatio_div (b := 2) (by norm_num) e
  have h10 := powerRatio_div (b := 10) (by norm_num) k
  obtain ⟨hu1, hu2⟩ := powerRatio_pos (b := 2) (by norm_num) e
  obtain ⟨hs1, hs2⟩ := powerRatio_pos (b := 10) (by norm_num) k
  rw [Nat.cast_ofNat] at h2 h10
  unfold quarter
  rw [← h2, ← h10]
  generalize powerRatio 2 e = u at *
  generalize powerRatio 10 k = s at *
  have hu2' : (0 : ℚ) < u.2 := by exact_mod_cast hu2
  have hs2' : (0 : ℚ) < s.2 := by exact_mod_cast hs2
  have hl : (a : ℚ) * (u.1 / u.2) = ((a * (u.1 * s.2) : Nat) : ℚ) / (u.2 * s.2) := by
    push_cast; field_simp
  have hr : 4 * ((b : ℚ) * (s.1 / s.2)) = ((b * (4 * u.2 * s.1) : Nat) : ℚ) / (u.2 * s.2) := by
    push_cast; field_simp
  have hpos : (0 : ℚ) < u.2 * s.2 := by positivity
  rw [hl, hr, div_le_div_iff_of_pos_right hpos, div_lt_div_iff_of_pos_right hpos]
  exact ⟨by exact_mod_cast Iff.rfl, by exact_mod_cast Iff.rfl⟩

theorem mul_quarter_ge_iff (a b : Nat) (e k : Int) :
    (b * (quarter e k).2 ≤ a * (quarter e k).1 ↔ 4 * (b * 10 ^ k) ≤ (a : ℚ) * 2 ^ e) ∧
      (b * (quarter e k).2 < a * (quarter e k).1 ↔ 4 * (b * 10 ^ k) < (a : ℚ) * 2 ^ e) := by
  obtain ⟨h1, h2⟩ := mul_quarter_le_iff a b e k
  constructor
  · rw [← not_lt, ← not_lt, h2]
  · rw [← not_le, ← not_le, h1]

/-- What `onGrid?` asks of one side: the ends count for an even mantissa. -/
def Fits (m x y : Nat) : Prop :=
  if m % 2 = 0 then x ≤ y else x < y

instance (m x y : Nat) : Decidable (Fits m x y) := by
  unfold Fits; infer_instance

theorem Fits.of_lt {x y : Nat} (h : x < y) : Fits m x y := by
  unfold Fits; split
  exacts [h.le, h]

theorem within_iff_fits (a : Nat) (k : Int) :
    Within m e (a * 10 ^ k) ↔
      Fits m ((window m e).1 * (quarter e k).1) (a * (quarter e k).2) ∧
        Fits m (a * (quarter e k).2) ((window m e).2 * (quarter e k).1) := by
  unfold Within Fits
  split
  · rw [(mul_quarter_le_iff _ a e k).1, (mul_quarter_ge_iff _ a e k).1]
  · rw [(mul_quarter_le_iff _ a e k).2, (mul_quarter_ge_iff _ a e k).2]

/-- The grid point below the value; the other neighbour is the next one. -/
def below (m : Nat) (e k : Int) : Nat :=
  4 * m * (quarter e k).1 / (quarter e k).2

theorem onGrid?_eq (m : Nat) (e k : Int) :
    onGrid? m e k =
      match decide (Fits m ((window m e).1 * (quarter e k).1) (below m e k * (quarter e k).2)),
        decide (Fits m ((below m e k + 1) * (quarter e k).2)
          ((window m e).2 * (quarter e k).1)) with
      | true, true =>
        some (if 4 * m * (quarter e k).1 - below m e k * (quarter e k).2 <
            (below m e k + 1) * (quarter e k).2 - 4 * m * (quarter e k).1
          then below m e k else below m e k + 1)
      | true, false => some (below m e k)
      | false, true => some (below m e k + 1)
      | false, false => none := by
  by_cases h : m % 2 = 0 <;> simp [onGrid?, Fits, below, quarter, h] <;> rfl

/-- An answer is one of the two neighbours, and that neighbour fits. -/
theorem eq_below_or_of_onGrid? {k : Int} {a : Nat} (h : onGrid? m e k = some a) :
    (a = below m e k ∧
      Fits m ((window m e).1 * (quarter e k).1) (below m e k * (quarter e k).2)) ∨
    (a = below m e k + 1 ∧
      Fits m ((below m e k + 1) * (quarter e k).2) ((window m e).2 * (quarter e k).1)) := by
  rw [onGrid?_eq] at h
  split at h
  case h_1 hlo hhi =>
    split at h
    · exact .inl ⟨(Option.some.inj h).symm, of_decide_eq_true hlo⟩
    · exact .inr ⟨(Option.some.inj h).symm, of_decide_eq_true hhi⟩
  case h_2 hlo _ => exact .inl ⟨(Option.some.inj h).symm, of_decide_eq_true hlo⟩
  case h_3 _ hhi => exact .inr ⟨(Option.some.inj h).symm, of_decide_eq_true hhi⟩
  case h_4 => cases h

/-- **What a grid answers lies in the interval.** -/
theorem onGrid?_within {k : Int} {a : Nat} (hm : m ≠ 0) (h : onGrid? m e k = some a) :
    Within m e (a * 10 ^ k) := by
  obtain ⟨hp, hq⟩ := quarter_pos e k
  have hbelow : below m e k * (quarter e k).2 ≤ 4 * m * (quarter e k).1 := Nat.div_mul_le_self _ _
  have habove : 4 * m * (quarter e k).1 < (below m e k + 1) * (quarter e k).2 := by
    rw [Nat.mul_comm (below m e k + 1)]; exact Nat.lt_mul_div_succ _ hq
  have hlo : (window m e).1 < 4 * m := by unfold window; simp only; split <;> omega
  have hhi : 4 * m < (window m e).2 := by unfold window; simp only; omega
  rw [within_iff_fits]
  rcases eq_below_or_of_onGrid? h with ⟨rfl, hfits⟩ | ⟨rfl, hfits⟩
  · exact ⟨hfits, .of_lt (hbelow.trans_lt (Nat.mul_lt_mul_of_pos_right hhi hp))⟩
  · exact ⟨.of_lt ((Nat.mul_lt_mul_of_pos_right hlo hp).trans habove), hfits⟩

/-- A grid whose steps are less than half a unit answers. -/
theorem onGrid?_isSome {k : Int} (h : 2 * (10 : ℚ) ^ k < 2 ^ e) : (onGrid? m e k).isSome := by
  obtain ⟨hp, hq⟩ := quarter_pos e k
  have hbelow : below m e k * (quarter e k).2 ≤ 4 * m * (quarter e k).1 := Nat.div_mul_le_self _ _
  have hstep : 1 * (quarter e k).2 < 2 * (quarter e k).1 := by
    rw [(mul_quarter_ge_iff 2 1 e k).2]
    push_cast
    linarith
  have hfits : Fits m ((below m e k + 1) * (quarter e k).2) ((window m e).2 * (quarter e k).1) := by
    refine .of_lt ?_
    have : (window m e).2 = 4 * m + 2 := rfl
    rw [this, Nat.add_mul, Nat.add_mul]
    omega
  rw [onGrid?_eq, decide_eq_true hfits]
  split <;> first | rfl | contradiction

/-! ## The scan over the grids -/

/-- A scan that reaches a grid that answers has its answer from a grid. -/
theorem scanGrids_eq {k : Int} {steps : Nat}
    (h : ∃ n < steps, (onGrid? m e (k - n)).isSome) :
    ∃ n a, scanGrids m e k steps = ⟨a, k - (n : Nat)⟩ ∧ onGrid? m e (k - (n : Nat)) = some a := by
  induction steps generalizing k with
  | zero => obtain ⟨n, hn, -⟩ := h; omega
  | succ steps ih =>
    unfold scanGrids
    split
    case h_1 a ha => exact ⟨0, a, by simp, by simpa using ha⟩
    case h_2 hnone =>
      obtain ⟨n, hn, hsome⟩ := h
      cases n with
      | zero => simp [hnone] at hsome
      | succ n =>
        have hshift (n : Nat) : k - ((n + 1 : Nat) : Int) = k - 1 - n := by push_cast; ring
        rw [hshift] at hsome
        obtain ⟨n', a, heq, ha⟩ := ih ⟨n, by omega, hsome⟩
        exact ⟨n' + 1, a, by rw [hshift, heq], by rw [hshift, ha]⟩

/-- **The shortest decimal lies in the interval.** -/
theorem shortest_within (hc : Canonical m e) (hm : m ≠ 0) :
    Within m e (shortest m e).value ∧ (shortest m e).exponent ≤ 400 := by
  have hlog : m.log2 < 53 := (Nat.log2_lt hm).mpr hc.mantissa_lt
  have hlow := hc.le_exponent
  have hhigh := hc.exponent_le
  set k : Int := ((m.log2 : Int) + 1 + e) * 30103 / 100000 + 2 with hk
  -- the last grid but one is fine enough
  have hfine : (onGrid? m e (k - (38 : Nat))).isSome := by
    apply onGrid?_isSome
    have hle : (10 : ℚ) ^ (k - 26 - 8) ≤ 2 ^ (e - 10) :=
      ten_zpow_le_two_zpow (by omega) (by omega) (by omega)
    have h10 := ten_zpow_pos (k - 38)
    have hsplit : (10 : ℚ) ^ (k - 26 - 8) = 10 ^ (k - (38 : Nat)) * 10 ^ 4 := by
      rw [← zpow_natCast, ← zpow_add₀ (by norm_num)]
      congr 1
      push_cast
      ring
    have hle' : (2 : ℚ) ^ (e - 10) ≤ 2 ^ e := zpow_le_zpow_right₀ (by norm_num) (by omega)
    rw [hsplit] at hle
    push_cast at hle ⊢
    linarith
  have hsteps : ∃ n < 40, (onGrid? m e (k - (n : Nat))).isSome := ⟨38, by norm_num, hfine⟩
  obtain ⟨n, a, heq, ha⟩ := scanGrids_eq hsteps
  have hshortest : shortest m e = ⟨a, k - (n : Nat)⟩ := by
    unfold shortest
    rw [if_neg hm, ← hk, heq]
  rw [hshortest]
  exact ⟨onGrid?_within hm ha, by simp only; omega⟩

theorem shortest_zero (e : Int) : shortest 0 e = ⟨0, 0⟩ := by simp [shortest]

/-- **The shortest decimal of a double reads back as that double.** -/
theorem nearest_shortest (hc : Canonical m e) (negative : Bool) :
    nearest negative (shortest m e) = withSign negative (magnitude m e) := by
  by_cases hm : m = 0
  · subst hm
    have he : e = -1074 := hc.full.resolve_left (by decide)
    subst he
    rw [shortest_zero, nearest_zero]
    rfl
  · obtain ⟨hw, hexp⟩ := shortest_within hc hm
    exact nearest_of_within hc hm hexp hw negative

/-! ## Integers and fractions -/

/-- The integer in units of one that an integral `m · 2 ^ e` is. -/
theorem cast_div_of_integral (h : m * (powerRatio 2 e).1 % (powerRatio 2 e).2 = 0) :
    ((m * (powerRatio 2 e).1 / (powerRatio 2 e).2 : Nat) : ℚ) = m * 2 ^ e := by
  have hq := (powerRatio_pos two_pos e).2
  have hpow := powerRatio_div two_pos e
  rw [Nat.cast_ofNat] at hpow
  rw [Nat.cast_div (Nat.dvd_of_mod_eq_zero h) (by exact_mod_cast hq.ne'), ← hpow]
  push_cast
  ring

/-- **An integral double reads back from its integer and one decimal.** -/
theorem nearest_integer (hc : Canonical m e)
    (h : m * (powerRatio 2 e).1 % (powerRatio 2 e).2 = 0) (negative : Bool) :
    nearest negative ⟨10 * (m * (powerRatio 2 e).1 / (powerRatio 2 e).2), -1⟩ =
      withSign negative (magnitude m e) := by
  by_cases hm : m = 0
  · subst hm
    have he : e = -1074 := hc.full.resolve_left (by decide)
    subst he
    rw [Nat.zero_mul, Nat.zero_div, Nat.mul_zero, nearest_zero]
    rfl
  · refine nearest_of_within hc hm (by norm_num) ?_ negative
    have hvalue : (⟨10 * (m * (powerRatio 2 e).1 / (powerRatio 2 e).2), -1⟩ : Decimal).value =
        m * 2 ^ e := by
      rw [value, Nat.cast_mul, cast_div_of_integral h, zpow_neg_one]
      push_cast
      ring
    rw [hvalue]
    exact within_self m e

/-- **A double that is no integer is written with a fraction.** -/
theorem shortest_exponent_neg (hc : Canonical m e)
    (h : m * (powerRatio 2 e).1 % (powerRatio 2 e).2 ≠ 0) : (shortest m e).exponent < 0 := by
  have hm : m ≠ 0 := by rintro rfl; simp at h
  by_contra hnonneg
  obtain ⟨k, hk⟩ := Int.eq_ofNat_of_zero_le (not_lt.mp hnonneg)
  rcases Int.le_total 0 e with he | he
  · -- without binary places every double is an integer
    apply h
    have : (powerRatio 2 e).2 = 1 := by
      rw [powerRatio, show (-e).toNat = 0 by omega]
    rw [this, Nat.mod_one]
  · -- the decimal is an integer, so a whole number of units, and within half a unit of `m`
    obtain ⟨f, hf⟩ := Int.eq_ofNat_of_zero_le (show 0 ≤ -e by omega)
    obtain ⟨hlo, hhi⟩ := ((shortest_within hc hm).1.near hm).1
    have hscaled : (shortest m e).value / 2 ^ e =
        (((shortest m e).coefficient * 10 ^ k * 2 ^ f : Nat) : ℚ) := by
      rw [value, hk, show e = -(f : Int) by omega, zpow_natCast, zpow_neg, zpow_natCast]
      push_cast
      field_simp
    rw [hscaled] at hlo hhi
    generalize (shortest m e).coefficient * 10 ^ k = n at hlo hhi
    have hlt : m < n * 2 ^ f + 1 := by
      have : (m : ℚ) < ((n * 2 ^ f + 1 : Nat) : ℚ) := by push_cast at hlo ⊢; linarith
      exact_mod_cast this
    have hgt : n * 2 ^ f < m + 1 := by
      have : ((n * 2 ^ f : Nat) : ℚ) < ((m + 1 : Nat) : ℚ) := by push_cast at hhi ⊢; linarith
      exact_mod_cast this
    have hmn : m = n * 2 ^ f := by omega
    have hpow : powerRatio 2 e = (1, 2 ^ f) := by
      rw [show e = -(f : Int) by omega, powerRatio_neg_natCast]; rfl
    rw [hpow, hmn] at h
    simp at h

end Runbook.Decimal
