import Mathlib
import Runbook.Decimal.Double

/-!
# The bits of finite doubles

A finite double is determined by its sign, its mantissa and its exponent, and every canonical
mantissa and exponent are those of a double.

* `Canonical`: the mantissas and exponents that `parts` answers with.
* `magnitude`: the bits of a canonical mantissa and exponent, the sign aside.
* `parts_withSign` and `withSign_of_parts`: `parts` and `withSign` undo each other.
* `isFinite_iff_parts`: the finite doubles are the ones that have mantissa and exponent.
* `beq_self_of_isFinite`, `isFinite_of_beq`: what equality of numbers says about finite ones.
-/

namespace Runbook.Double

open Float.Model
open Float.Model.UnpackedFloat (Sign packComponents unpackMantissa unpackExponent unpackSign)

/-! ## Fields of a bit pattern -/

theorem toNat_unpackMantissa (b : BitVec 64) :
    (@unpackMantissa Format.binary64 b).toNat = b.toNat % fractionSize := by
  simp [unpackMantissa, fractionSize, BitVec.extractLsb, BitVec.extractLsb']

theorem toNat_unpackExponent (b : BitVec 64) :
    (@unpackExponent Format.binary64 b).toNat = b.toNat / fractionSize % 2048 := by
  simp [unpackExponent, fractionSize, BitVec.extractLsb, BitVec.extractLsb',
    Nat.shiftRight_eq_div_pow]

theorem toNat_unpackSign (b : BitVec 64) :
    (@unpackSign Format.binary64 b).toNat = b.toNat / signWeight := by
  have := b.isLt
  simp [unpackSign, signWeight, BitVec.extractLsb, BitVec.extractLsb', Nat.shiftRight_eq_div_pow]
  omega

theorem toNat_packComponents (s : Sign) (e : BitVec 11) (m : BitVec 52) :
    (packComponents Format.binary64 s e m).toNat =
      s.toBitVec.toNat * signWeight + e.toNat * fractionSize + m.toNat := by
  have := e.isLt
  have := m.isLt
  simp only [packComponents, BitVec.toNat_append]
  rw [← Nat.shiftLeft_add_eq_or_of_lt (by omega), ← Nat.shiftLeft_add_eq_or_of_lt (by omega)]
  simp only [Nat.shiftLeft_eq, signWeight, fractionSize]
  omega

theorem toNat_ofBitVec_unpackSign (b : BitVec 64) :
    (Sign.ofBitVec (@unpackSign Format.binary64 b)).toBitVec.toNat =
      b.toNat / signWeight := by
  rw [← toNat_unpackSign]
  generalize @unpackSign Format.binary64 b = s
  have h : s = 0#1 ∨ s = 1#1 := by
    have := s.isLt
    rcases Nat.lt_or_ge s.toNat 1 with h | h
    · left; apply BitVec.eq_of_toNat_eq; simp; omega
    · right; apply BitVec.eq_of_toNat_eq; simp; omega
  rcases h with rfl | rfl <;> rfl

theorem packComponents_unpack (b : BitVec 64) :
    packComponents Format.binary64 (Sign.ofBitVec (@unpackSign Format.binary64 b))
      (@unpackExponent Format.binary64 b) (@unpackMantissa Format.binary64 b) =
    b := by
  apply BitVec.eq_of_toNat_eq
  rw [toNat_packComponents, toNat_ofBitVec_unpackSign, toNat_unpackExponent, toNat_unpackMantissa]
  unfold signWeight fractionSize
  omega

/-- A pattern whose exponent is not the greatest one survives unpacking. -/
theorem pack_unpack {b : BitVec 64} (h : b.toNat / fractionSize % 2048 ≠ 2047) :
    UnpackedFloat.pack Format.binary64 (UnpackedFloat.unpack Format.binary64 b) = b := by
  have he := toNat_unpackExponent b
  have hm := toNat_unpackMantissa b
  have hmlt : b.toNat % fractionSize < 2 ^ 52 := Nat.mod_lt _ (by decide)
  have hne : @unpackExponent Format.binary64 b ≠ -1#_ := by
    intro e
    rw [e] at he
    exact h he.symm
  unfold UnpackedFloat.unpack
  simp only [if_neg hne]
  split
  case isTrue h0 =>
    conv_rhs => rw [← packComponents_unpack b, h0]
    split
    case isTrue hm0 => rw [hm0]; rfl
    case isFalse hm0 =>
      have hpos : b.toNat % fractionSize ≠ 0 := by
        intro e
        apply hm0
        apply BitVec.eq_of_toNat_eq
        rw [hm, e]
        rfl
      have hlog : (b.toNat % fractionSize).log2 < 52 := (Nat.log2_lt hpos).mpr hmlt
      rw [h0] at he
      simp only [UnpackedFloat.pack, h0, hm, Format.mantissaBits, Format.exponentBias]
      rw [if_neg (by decide), if_neg (by omega), ← hm, BitVec.ofNat_toNat, BitVec.setWidth_eq]
  case isFalse h0 =>
    conv_rhs => rw [← packComponents_unpack b]
    have hlt : b.toNat / fractionSize % 2048 < 2047 := by omega
    have hone : (1#1 ++ @unpackMantissa Format.binary64 b).toNat =
        2 ^ 52 + b.toNat % fractionSize := by
      rw [BitVec.toNat_append, ← Nat.shiftLeft_add_eq_or_of_lt (BitVec.isLt _), hm]
      rfl
    have hlog : (2 ^ 52 + b.toNat % fractionSize).log2 = 52 := by
      rw [Nat.log2_eq_iff (by omega)]
      omega
    simp only [UnpackedFloat.pack, hone, he, Format.mantissaBits, Format.exponentBias, hlog]
    rw [if_neg (show ¬ 2 ^ 11 ≤ _ by omega), if_pos trivial]
    congr 1
    · apply BitVec.eq_of_toNat_eq
      rw [he, BitVec.toNat_ofNat]
      omega
    · apply BitVec.eq_of_toNat_eq
      rw [hm, BitVec.toNat_ofNat]
      omega

theorem toBits_ofBits {b : UInt64} (h : b.toNat / fractionSize % 2048 ≠ 2047) :
    (Float.ofBits b).toBits = b :=
  congrArg UInt64.ofBitVec (pack_unpack (b := b.toBitVec) h)

theorem toBits_injective {x y : Float} (h : x.toBits = y.toBits) : x = y := by
  obtain ⟨⟨b, _⟩⟩ := x
  obtain ⟨⟨c, _⟩⟩ := y
  cases (h : b = c)
  rfl

/-- Finite are the doubles whose exponent is not the greatest one. -/
theorem isFinite_iff {x : Float} :
    x.isFinite = true ↔ x.toBits.toNat / fractionSize % 2048 ≠ 2047 := by
  have he := toNat_unpackExponent x.toBits.toBitVec
  change (UnpackedFloat.unpack Format.binary64 x.toBits.toBitVec).isFinite = true ↔ _
  unfold UnpackedFloat.unpack
  dsimp only
  split
  case isTrue h =>
    rw [h] at he
    have : x.toBits.toNat / fractionSize % 2048 = 2047 := he.symm
    simp only [this, ne_eq, not_true_eq_false, iff_false]
    split <;> simp [UnpackedFloat.isFinite]
  case isFalse h =>
    have : x.toBits.toNat / fractionSize % 2048 ≠ 2047 := by
      intro e
      apply h
      apply BitVec.eq_of_toNat_eq
      rw [he]
      exact e
    simp only [this, ne_eq, not_false_eq_true, iff_true]
    split
    · split <;> rfl
    · rfl

/-! ## Mantissa and exponent -/

/-- Mantissa and exponent of a double: 53 bits, fewer only at the least exponent. -/
structure Canonical (m : Nat) (e : Int) : Prop where
  mantissa_lt : m < 2 * fractionSize
  le_exponent : -1074 ≤ e
  exponent_le : e ≤ 971
  full : fractionSize ≤ m ∨ e = -1074

/-- The bits of `m · 2 ^ e`. A full mantissa carries its highest bit into the exponent. -/
def magnitude (m : Nat) (e : Int) : Nat :=
  (e + 1074).toNat * fractionSize + m

theorem Canonical.magnitude_lt {m : Nat} {e : Int} (h : Canonical m e) :
    magnitude m e < infinityBits := by
  obtain ⟨hm, hl, hu, -⟩ := h
  unfold magnitude infinityBits fractionSize at *
  omega

theorem toNat_withSign {b : Nat} (h : b < infinityBits) (negative : Bool) :
    (UInt64.ofNat (if negative then signWeight + b else b)).toNat =
      if negative then signWeight + b else b := by
  rw [UInt64.toNat_ofNat']
  unfold infinityBits fractionSize at h
  unfold signWeight
  split <;> omega

/-- Patterns below infinity are finite, and the sign can be read off. -/
theorem toBits_withSign {b : Nat} (h : b < infinityBits) (negative : Bool) :
    (withSign negative b).toBits.toNat = if negative then signWeight + b else b := by
  unfold withSign
  rw [toBits_ofBits, toNat_withSign h]
  rw [toNat_withSign h]
  unfold infinityBits fractionSize at *
  unfold signWeight
  split <;> omega

theorem isFinite_withSign {b : Nat} (h : b < infinityBits) (negative : Bool) :
    (withSign negative b).isFinite = true := by
  rw [isFinite_iff, toBits_withSign h]
  unfold infinityBits fractionSize at *
  unfold signWeight
  split <;> omega

theorem parts_withSign {m : Nat} {e : Int} (h : Canonical m e) (negative : Bool) :
    parts (withSign negative (magnitude m e)) = .finite negative m e := by
  have hlt := h.magnitude_lt
  obtain ⟨hm, hl, hu, hf⟩ := h
  unfold parts
  rw [toBits_withSign hlt]
  have hneg : decide (signWeight ≤ if negative then signWeight + magnitude m e else magnitude m e) =
      negative := by
    unfold magnitude signWeight fractionSize at *
    cases negative
    · simp; omega
    · simp
  have hbiased : (if negative then signWeight + magnitude m e else magnitude m e) /
      fractionSize % 2048 = if m < fractionSize then 0 else (e + 1075).toNat := by
    unfold magnitude signWeight fractionSize at *
    cases negative <;> simp <;> split <;> omega
  have hfraction : (if negative then signWeight + magnitude m e else magnitude m e) %
      fractionSize = if m < fractionSize then m else m - fractionSize := by
    unfold magnitude signWeight fractionSize at *
    cases negative <;> simp <;> split <;> omega
  simp only [hneg, hbiased, hfraction]
  by_cases hs : m < fractionSize
  · have he : e = -1074 := by omega
    simp [hs, he]
  · have h1 : (e + 1075).toNat ≠ 2047 := by omega
    have h2 : (e + 1075).toNat ≠ 0 := by omega
    rw [if_neg hs, if_neg hs, if_neg h1, if_neg h2]
    have hm' : fractionSize + (m - fractionSize) = m := by omega
    have he' : ((e + 1075).toNat : Int) - 1075 = e := by omega
    rw [hm', he']

/-- The two finite cases of `parts`: without and with the highest bit of the mantissa. -/
theorem parts_eq_finite {x : Float} {negative : Bool} {m : Nat} {e : Int}
    (h : parts x = .finite negative m e) :
    negative = decide (signWeight ≤ x.toBits.toNat) ∧
      ((x.toBits.toNat / fractionSize % 2048 = 0 ∧ m = x.toBits.toNat % fractionSize ∧
          e = -1074) ∨
        (x.toBits.toNat / fractionSize % 2048 ≠ 0 ∧ x.toBits.toNat / fractionSize % 2048 ≠ 2047 ∧
          m = fractionSize + x.toBits.toNat % fractionSize ∧
          e = (x.toBits.toNat / fractionSize % 2048 : Nat) - 1075)) := by
  unfold parts at h
  simp only at h
  by_cases h1 : x.toBits.toNat / fractionSize % 2048 = 2047
  · rw [if_pos h1] at h
    by_cases h2 : x.toBits.toNat % fractionSize = 0
    · rw [if_pos h2] at h; cases h
    · rw [if_neg h2] at h; cases h
  · rw [if_neg h1] at h
    by_cases h2 : x.toBits.toNat / fractionSize % 2048 = 0
    · rw [if_pos h2] at h
      obtain ⟨rfl, rfl, rfl⟩ := Parts.finite.inj h
      exact ⟨rfl, .inl ⟨h2, rfl, rfl⟩⟩
    · rw [if_neg h2] at h
      obtain ⟨rfl, rfl, rfl⟩ := Parts.finite.inj h
      exact ⟨rfl, .inr ⟨h2, h1, rfl, rfl⟩⟩

theorem canonical_of_parts {x : Float} {negative : Bool} {m : Nat} {e : Int}
    (h : parts x = .finite negative m e) : Canonical m e := by
  have hlt : x.toBits.toNat % fractionSize < fractionSize := Nat.mod_lt _ (by decide)
  rcases (parts_eq_finite h).2 with ⟨-, rfl, rfl⟩ | ⟨h0, h1, rfl, rfl⟩
  · exact ⟨by omega, by omega, by omega, .inr rfl⟩
  · exact ⟨by omega, by omega, by omega, .inl (by omega)⟩

theorem withSign_of_parts {x : Float} {negative : Bool} {m : Nat} {e : Int}
    (h : parts x = .finite negative m e) : withSign negative (magnitude m e) = x := by
  apply toBits_injective
  apply UInt64.toNat_inj.mp
  rw [toBits_withSign (canonical_of_parts h).magnitude_lt]
  have hx := x.toBits.toNat_lt
  obtain ⟨rfl, hme⟩ := parts_eq_finite h
  have hmag : magnitude m e =
      x.toBits.toNat / fractionSize % 2048 * fractionSize + x.toBits.toNat % fractionSize := by
    unfold magnitude fractionSize at *
    rcases hme with ⟨h0, rfl, he⟩ | ⟨h0, h1, rfl, he⟩ <;> omega
  rw [hmag]
  generalize x.toBits.toNat = b at *
  simp only [decide_eq_true_eq]
  unfold signWeight fractionSize at *
  split <;> omega

theorem isFinite_iff_parts {x : Float} :
    x.isFinite = true ↔ ∃ negative m e, parts x = .finite negative m e := by
  rw [isFinite_iff]
  unfold parts
  simp only
  constructor
  · intro h
    rw [if_neg h]
    split <;> exact ⟨_, _, _, rfl⟩
  · rintro ⟨negative, m, e, h⟩ h'
    rw [if_pos h'] at h
    split at h <;> cases h

/-! ## Equality of numbers -/

theorem beq_self_of_isFinite {x : Float} (h : x.isFinite = true) : (x == x) = true := by
  change (x.toModel.unpack.compare x.toModel.unpack == some .eq) = true
  change x.toModel.unpack.isFinite = true at h
  cases hx : x.toModel.unpack with
  | infinity s => rw [hx] at h; cases h
  | notANumber => rw [hx] at h; cases h
  | zero s => rfl
  | finite s m e hm => cases s <;> simp [UnpackedFloat.compare, Ordering.then]

theorem isFinite_of_beq {x y : Float} (h : (x == y) = true) (hx : x.isFinite = true) :
    y.isFinite = true := by
  change (x.toModel.unpack.compare y.toModel.unpack == some .eq) = true at h
  change x.toModel.unpack.isFinite = true at hx
  change y.toModel.unpack.isFinite = true
  cases hy : y.toModel.unpack with
  | zero s => rfl
  | finite s m e hm => rfl
  | notANumber => cases hx' : x.toModel.unpack <;> simp_all [UnpackedFloat.compare]
  | infinity s =>
    cases hx' : x.toModel.unpack <;> cases s <;>
      simp_all [UnpackedFloat.compare, UnpackedFloat.isFinite]

end Runbook.Double
