import Runbook.Proofs.Decimal.Arithmetic
import Runbook.Proofs.Standard.Storing
import Runbook.Standard.Grid

/-!
# Equally spaced values

A grid is computed from the difference of its ends: the difference is divided into equal parts, and
each point is so many parts from the start. With all of this rounded, a point may lie beside its
place, but it does not leave the numbers between the ends by more than the least double, so none of
the points is infinite. All of this rests on the difference. Where it is too large for a double, the
parts are infinite, the start is lost with the rest, and only the end is stored as it was asked for.

* `offset_error`: how far from its place a point is; `abs_add_le_of_near`: it stays in between.
* `isFinite_gridPoint`: so it is a number.
* `Spans`, `Spoiled`: the values of a grid, with a finite difference and without.
* `Spaces`, `spaces_of_expressible`: the tasks that store a grid.
* `grid_spans_iff_difference_isFinite`: what they store.
-/

namespace Runbook.Standard

open Double

/-! ## Errors on the way to a point -/

section

variable {d D s t : ℚ} {i n : Nat} (hi : i < n) (hn : n ≤ 2 ^ 24)
include hi hn

/-- The last of the equal parts leaves room for an error. -/
theorem fraction_mul_le_one : (i / n : ℚ) * (1 + 1 / 2 ^ 51) ≤ 1 := by
  have hn0 : (0 : ℚ) < n := by exact_mod_cast Nat.zero_lt_of_lt hi
  have hi1 : (i : ℚ) + 1 ≤ n := by exact_mod_cast hi
  have hn1 : (n : ℚ) ≤ 2 ^ 24 := by exact_mod_cast hn
  rw [div_mul_eq_mul_div, div_le_one hn0]
  linarith

/-- The `n`th part of a number, rounded, and taken `i` times. -/
theorem part_error (hs : |s - D / n| ≤ tolerance (D / n)) :
    |i * s - i / n * D| ≤ 1 / 2 ^ 53 * |i / n * D| + 2 ^ 24 * 2 ^ (-1075 : Int) := by
  have hi0 : (0 : ℚ) ≤ i := Nat.cast_nonneg i
  have hi1 : (i : ℚ) ≤ 2 ^ 24 := by exact_mod_cast hi.le.trans hn
  have hpart : (i : ℚ) / n * D = i * (D / n) := by ring
  have h := mul_le_mul_of_nonneg_left hs hi0
  have hleast := mul_le_mul_of_nonneg_right hi1 (two_zpow_pos (-1075)).le
  rw [tolerance] at h
  rw [hpart, ← mul_sub, abs_mul, abs_mul, abs_of_nonneg hi0]
  linarith

/-- How far from its place an offset is, with the difference `d` of the ends, its `n`th part and the
product with `i` rounded one after the other. -/
theorem offset_error (hD : |D - d| ≤ tolerance d) (hs : |s - D / n| ≤ tolerance (D / n))
    (ht : |t - i * s| ≤ tolerance (i * s)) :
    |t - i / n * d| ≤ 1 / 2 ^ 51 * |i / n * d| + 2 ^ 28 * 2 ^ (-1075 : Int) := by
  have hparts := part_error hi hn hs
  have hq0 : (0 : ℚ) ≤ i / n := by positivity
  have hq1 : (i / n : ℚ) ≤ 1 := by
    have hroom := fraction_mul_le_one hi hn
    linarith
  have hleast := two_zpow_pos (-1075)
  rw [tolerance] at hD ht
  generalize (i / n : ℚ) = q at *
  generalize (2 : ℚ) ^ (-1075 : Int) = least at *
  have hdifference : |q * D - q * d| ≤ 1 / 2 ^ 53 * |q * d| + least := by
    have h := mul_le_mul_of_nonneg_left hD hq0
    have hless : q * least ≤ least := mul_le_of_le_one_left hleast.le hq1
    rw [← mul_sub, abs_mul, abs_mul, abs_of_nonneg hq0]
    linarith
  have hdistance : |q * D| ≤ |q * d| + |q * D - q * d| := by
    have h := abs_sub_abs_le_abs_sub (q * D) (q * d)
    linarith
  have hproduct : |i * s| ≤ |q * D| + |i * s - q * D| := by
    have h := abs_sub_abs_le_abs_sub (i * s) (q * D)
    linarith
  have htriangle : |t - q * d| ≤ |t - i * s| + |i * s - q * D| + |q * D - q * d| := by
    have h := abs_sub_le t (i * s) (q * d)
    have h' := abs_sub_le (i * s) (q * D) (q * d)
    linarith
  have h0 := abs_nonneg (q * d)
  linarith

/-- Between two numbers that are not too large, no part of the way leads to one that is, even if it
is a little longer or shorter than it should be. -/
theorem abs_add_le_of_near {a bound r : ℚ} (ha : |a| ≤ bound) (hb : |a + d| ≤ bound)
    (ht : |t - i / n * d| ≤ 1 / 2 ^ 51 * |i / n * d| + r) : |a + t| ≤ bound + r := by
  have hroom := fraction_mul_le_one hi hn
  have hq : (0 : ℚ) ≤ i / n := by positivity
  generalize (i / n : ℚ) = q at *
  obtain ⟨ha1, ha2⟩ := abs_le.mp ha
  obtain ⟨hb1, hb2⟩ := abs_le.mp hb
  obtain ⟨ht1, ht2⟩ := abs_le.mp ht
  rw [abs_le]
  rcases le_total 0 d with hd | hd
  · have hqd : 0 ≤ q * d := mul_nonneg hq hd
    have hfar : q * (1 + 1 / 2 ^ 51) * d ≤ 1 * d := mul_le_mul_of_nonneg_right hroom hd
    rw [abs_of_nonneg hqd] at ht1 ht2
    constructor <;> linarith
  · have hqd : q * d ≤ 0 := mul_nonpos_of_nonneg_of_nonpos hq hd
    have hfar : 1 * d ≤ q * (1 + 1 / 2 ^ 51) * d := mul_le_mul_of_nonpos_right hroom hd
    rw [abs_of_nonpos hqd] at ht1 ht2
    constructor <;> linarith

end

/-! ## Points -/

/-- The distance between two of `n + 1` points, as it is computed. -/
def spacing (start stop : Float) (n : Nat) : Float :=
  (stop - start) / ofInt (n : Nat)

theorem lt_of_le_pow {n : Nat} (h : n ≤ 2 ^ 24) : n < 2 * fractionSize :=
  Nat.lt_of_le_of_lt h (by decide)

/-- Numbers that are not larger than a double can be are no reason for an infinity, nor is what
rounding adds to them. -/
theorem add_least_le_limit {v : ℚ} (h : v ≤ largest) : v + 2 ^ 28 * 2 ^ (-1075 : Int) ≤ limit := by
  refine add_le_add h ?_
  rw [← zpow_natCast, ← zpow_add₀ two_ne_zero]
  exact zpow_le_zpow_right₀ one_le_two (by norm_num)

section

variable {start stop : Float} {i n : Nat} (hd : (stop - start).isFinite = true)
include hd

theorem rounded_spacing (hn : 0 < n) (hn' : n ≤ 2 ^ 24) :
    Rounded (value (stop - start) / n) (spacing start stop n) := by
  have hlt := lt_of_le_pow hn'
  have hvalue : value (ofInt (n : Nat)) = n := value_ofInt_natCast hlt
  have hne : value (ofInt (n : Nat)) ≠ 0 := by
    rw [hvalue]
    exact_mod_cast hn.ne'
  have h := rounded_div hd (isFinite_ofInt_natCast hlt) hne
  rwa [hvalue] at h

theorem isFinite_spacing (hn : 0 < n) (hn' : n ≤ 2 ^ 24) :
    (spacing start stop n).isFinite = true := by
  refine (rounded_spacing hd hn hn').isFinite ?_
  have hone : (1 : ℚ) ≤ n := by exact_mod_cast hn
  calc |value (stop - start) / n| = |value (stop - start)| / n := by rw [abs_div, Nat.abs_cast]
    _ ≤ |value (stop - start)| := div_le_self (abs_nonneg _) hone
    _ ≤ largest := abs_value_le hd
    _ ≤ limit := le_add_of_nonneg_right (two_zpow_pos _).le

/-- **No point of the grid is infinite** as long as the difference of its ends is not. -/
theorem isFinite_gridPoint (hstart : start.isFinite = true) (hstop : stop.isFinite = true)
    (hi : i < n) (hn : n ≤ 2 ^ 24) :
    (gridPoint start (spacing start stop n) i).isFinite = true := by
  have hpos : 0 < n := Nat.zero_lt_of_lt hi
  have hi' : i < 2 * fractionSize := lt_of_le_pow (hi.le.trans hn)
  have hstep := isFinite_spacing hd hpos hn
  have hdifference := (rounded_sub hstop hstart).error hd
  have hpart := (rounded_spacing hd hpos hn).error hstep
  have hproduct := rounded_mul (isFinite_ofInt_natCast hi') hstep
  rw [value_ofInt_natCast hi'] at hproduct
  have hoffset : (ofInt (i : Nat) * spacing start stop n).isFinite = true := by
    refine hproduct.isFinite ?_
    have hnear : |i * value (spacing start stop n) - i / n * value (stop - start)| ≤
        1 / 2 ^ 51 * |i / n * value (stop - start)| + 2 ^ 28 * 2 ^ (-1075 : Int) := by
      have herror := part_error hi hn hpart
      have h0 := abs_nonneg (i / n * value (stop - start))
      have hleast := two_zpow_pos (-1075)
      linarith
    have hbound := abs_add_le_of_near (a := 0) hi hn (abs_zero.trans_le (abs_nonneg _))
      (by rw [zero_add]) hnear
    rw [zero_add] at hbound
    exact hbound.trans (add_least_le_limit (abs_value_le hd))
  refine (rounded_add hstart hoffset).isFinite ?_
  have herror := offset_error hi hn hdifference hpart (hproduct.error hoffset)
  have hbound := abs_add_le_of_near hi hn (abs_value_le hstart)
    (by rw [add_sub_cancel]; exact abs_value_le hstop) herror
  exact hbound.trans (add_least_le_limit le_rfl)

end

/-! ## Differences that are no numbers -/

section

variable {start stop : Float} {i n : Nat}

/-- Subtracting finite doubles leads to a finite one or to an infinity. -/
theorem unpack_sub_of_not_isFinite (hstart : start.isFinite = true) (hstop : stop.isFinite = true)
    (hd : (stop - start).isFinite = false) : ∃ s, (stop - start).toModel.unpack = .infinity s := by
  cases rounded_sub hstop hstart with
  | finite hfinite => exact absurd hfinite (Bool.eq_false_iff.mp hd)
  | infinite hinfinite => exact ⟨_, hinfinite⟩

variable {s : Float.Model.UnpackedFloat.Sign}
  (hstep : (spacing start stop n).toModel.unpack = .infinity s)
include hstep

/-- No part of an infinite way is not the start: it is not a number. -/
theorem isNaN_gridPoint_zero : (gridPoint start (spacing start stop n) 0).isNaN = true := by
  have hsum := add_of_notANumber (x := start) (zero_mul_of_infinity hstep)
  change (gridPoint start (spacing start stop n) 0).toModel.unpack.isNaN = true
  rw [gridPoint, hsum]
  rfl

theorem isInf_gridPoint (hstart : start.isFinite = true) (hi : 0 < i) (hi' : i ≤ 2 ^ 24) :
    (gridPoint start (spacing start stop n) i).isInf = true := by
  have hsum := add_of_infinity hstart (mul_of_infinity hi (lt_of_le_pow hi') hstep)
  change (gridPoint start (spacing start stop n) i).toModel.unpack.isInf = true
  rw [gridPoint, hsum]
  rfl

end

/-! ## Grids -/

/-- `n` numbers, the first of them equal to `start` and the last one `stop`. -/
structure Spans (start stop : Float) (n : Int) (xs : List Float) : Prop where
  length_eq : (xs.length : Int) = n
  first : ∃ x, xs.head? = some x ∧ (x == start) = true
  last : xs.getLast? = some stop
  finite : ∀ x ∈ xs, x.isFinite = true

/-- `n` values of which `stop` is the last. The first one is not a number, all others are
infinite. -/
structure Spoiled (stop : Float) (n : Int) (xs : List Float) : Prop where
  length_eq : (xs.length : Int) = n
  first : ∃ x, xs.head? = some x ∧ x.isNaN = true
  last : xs.getLast? = some stop
  inner : ∀ (k : Nat) (x : Float), 0 < k → (k + 1 : Int) < n → xs[k]? = some x → x.isInf = true

theorem Spoiled.not_spans {start stop : Float} {n : Int} {xs : List Float}
    (h : Spoiled stop n xs) : ¬ Spans start stop n xs := by
  intro hspans
  obtain ⟨x, hx, hnan⟩ := h.first
  change x.toModel.unpack.isNaN = true at hnan
  rcases isFinite_iff_unpack.mp (hspans.finite x (List.mem_of_head? hx)) with
    ⟨_, hzero⟩ | ⟨_, _, _, _, hfinite⟩
  · rw [hzero] at hnan
    cases hnan
  · rw [hfinite] at hnan
    cases hnan

section

variable {start stop : Float} {n : Nat}

/-- All points but the last one are computed. -/
theorem spacedPoints_succ : spacedPoints start stop (n + 1) =
    (List.range n).map (gridPoint start (spacing start stop n)) ++ [stop] :=
  rfl

theorem length_spacedPoints : (spacedPoints start stop (n + 1)).length = n + 1 := by
  rw [spacedPoints_succ, List.length_append, List.length_map, List.length_range]
  rfl

theorem getLast?_spacedPoints : (spacedPoints start stop (n + 1)).getLast? = some stop := by
  rw [spacedPoints_succ, List.getLast?_concat]

theorem getElem?_spacedPoints {i : Nat} (hi : i < n) :
    (spacedPoints start stop (n + 1))[i]? = some (gridPoint start (spacing start stop n) i) := by
  have hlt : i < ((List.range n).map (gridPoint start (spacing start stop n))).length := by
    rwa [List.length_map, List.length_range]
  rw [spacedPoints_succ, List.getElem?_append_left hlt, List.getElem?_map, List.getElem?_range hi]
  rfl

variable (hstart : start.isFinite = true) (hstop : stop.isFinite = true) (hn : 0 < n)
  (hn' : n ≤ 2 ^ 24)
include hstart hstop hn hn'

/-- **A grid with a finite difference spans its ends.** -/
theorem spans_spacedPoints (hd : (stop - start).isFinite = true) :
    Spans start stop (n + 1 : Nat) (spacedPoints start stop (n + 1)) where
  length_eq := congrArg Nat.cast length_spacedPoints
  first := by
    obtain ⟨s, hzero⟩ := zero_mul_of_isFinite (isFinite_spacing hd hn hn')
    exact ⟨_, List.head?_eq_getElem?.trans (getElem?_spacedPoints hn), add_of_zero hstart hzero⟩
  last := getLast?_spacedPoints
  finite := by
    intro x hx
    rw [spacedPoints_succ, List.mem_append, List.mem_map, List.mem_singleton] at hx
    rcases hx with ⟨i, hi, rfl⟩ | rfl
    · exact isFinite_gridPoint hd hstart hstop (List.mem_range.mp hi) hn'
    · exact hstop

/-- **A grid without a finite difference has lost all but its end.** -/
theorem spoiled_spacedPoints (hd : (stop - start).isFinite = false) :
    Spoiled stop (n + 1 : Nat) (spacedPoints start stop (n + 1)) := by
  obtain ⟨s, hinfinite⟩ := unpack_sub_of_not_isFinite hstart hstop hd
  have hstep : (spacing start stop n).toModel.unpack = .infinity s :=
    div_of_infinity hn (lt_of_le_pow hn') hinfinite
  refine ⟨congrArg Nat.cast length_spacedPoints, ?_, getLast?_spacedPoints, ?_⟩
  · exact ⟨_, List.head?_eq_getElem?.trans (getElem?_spacedPoints hn), isNaN_gridPoint_zero hstep⟩
  · intro k x hk hlt hx
    have hkn : k < n := by omega
    rw [getElem?_spacedPoints hkn] at hx
    cases hx
    exact isInf_gridPoint hstep hstart hk (hkn.le.trans hn')

end

/-! ## Tasks that store a grid -/

/-- The name of the method. -/
def spacingName : String := "VectorNLinSpace"

/-- The task stores a grid of `n` values from `start` to `stop` in `v`. -/
structure Spaces (t : Task) (n : Int64) (start stop : Float) (v : VariableId) : Prop where
  name_eq : (library.catalog.methodAt t.method).name = spacingName
  keywords_eq : t.keywords = [.index n, .numeric start, .numeric stop]
  outputs_eq : t.outputs = [v]
  inputs_eq : t.inputs = []
  index_lt : v.index < library.catalog.vars.length
  group_eq : (library.catalog.variableAt v).group = .vector

/-- What the catalog says about the slots of the method. -/
theorem hasSlots_of_spacingName {m : MethodId}
    (h : (library.catalog.methodAt m).name = spacingName) :
    HasSlots (library.catalog.methodAt m) .vector [.index, .numeric, .numeric] := by
  have hall : ∀ d ∈ library.catalog.methods, d.name = spacingName →
      HasSlots d .vector [.index, .numeric, .numeric] := by decide +kernel
  exact methodAt_of_name (by decide) hall h

/-- Whatever is bound to the method is such a task, and its ends are numbers. -/
theorem spaces_of_expressible {t : Task} (ht : t.Expressible library.catalog)
    (hname : (library.catalog.methodAt t.method).name = spacingName) :
    ∃ n start stop v, Spaces t n start stop v ∧ start.isFinite = true ∧ stop.isFinite = true := by
  obtain ⟨v, hstores, hvalues⟩ :=
    exists_of_expressible ht (by decide) (hasSlots_of_spacingName hname)
  obtain ⟨x, _, ⟨hx, -⟩, hnumbers, hkeys⟩ := List.forall₂_cons_left_iff.mp hvalues
  obtain ⟨y, _, ⟨hy, hclean⟩, hnumber, rfl⟩ := List.forall₂_cons_left_iff.mp hnumbers
  obtain ⟨z, _, ⟨hz, hclean'⟩, hrest, rfl⟩ := List.forall₂_cons_left_iff.mp hnumber
  cases hrest
  cases x <;> cases hx
  cases y <;> cases hy
  cases z <;> cases hz
  exact ⟨_, _, _, v, ⟨hname, hkeys, hstores.outputs_eq, hstores.inputs_eq, hstores.index_lt,
    hstores.group_eq⟩, hclean, hclean'⟩

section

variable {t : Task} {n : Int64} {start stop : Float} {v : VariableId}

theorem Spaces.stores (ht : Spaces t n start stop v) :
    Stores spacingName [.index n, .numeric start, .numeric stop] .vector t v :=
  ⟨ht.name_eq, ht.keywords_eq, ht.outputs_eq, ht.inputs_eq, ht.index_lt, ht.group_eq⟩

/-- What the method does: it stores its grid, and that is all. -/
theorem countedSpace_eq (ht : Spaces t n start stop v) (hlow : 2 ≤ n.toInt)
    (hhigh : n.toInt ≤ maxGridLength) (depth : Nat) (silent : Bool) :
    library.native t.method ⟨library.catalog, t, depth, silent⟩ =
      .set v (.vector (spacedPoints start stop n.toNatClampNeg)) := by
  let call : Call := ⟨library.catalog, t, depth, silent⟩
  have hnative : library.native t.method = countedSpace :=
    native_of_name (i := 8) (by decide) ht.name_eq
  have hn : call.indexKeyword 0 = .done n := by
    simp [call, Call.indexKeyword, Call.keyword, ht.keywords_eq, Action.andThen, Value.asIndex,
      Action.contents]
  have hstart : call.numericKeyword 1 = .done start := by
    simp [call, Call.numericKeyword, Call.keyword, ht.keywords_eq, Action.andThen, Value.asNumeric,
      Action.contents]
  have hstop : call.numericKeyword 2 = .done stop := by
    simp [call, Call.numericKeyword, Call.keyword, ht.keywords_eq, Action.andThen, Value.asNumeric,
      Action.contents]
  have hgrid : countedSpace call =
      call.output 0 (.vector (spacedPoints start stop n.toNatClampNeg)) := by
    have hfew : ¬ n < 2 := fun h => Int.not_lt.mpr hlow (Int64.lt_iff_toInt_lt.mp h)
    rw [countedSpace, hn, hstart, hstop]
    exact (if_neg hfew).trans (if_neg (Int.not_lt.mpr hhigh))
  rw [hnative, hgrid]
  exact ht.stores.output_eq (hasSlots_of_spacingName ht.name_eq) depth silent rfl

/-- A task that stores a grid succeeds, whatever the run has come to. -/
theorem runTask_countedSpace (ht : Spaces t n start stop v) (hlow : 2 ≤ n.toInt)
    (hhigh : n.toInt ≤ maxGridLength) (below : Runner) (depth : Nat) (silent : Bool) (i : Nat)
    (s : State) :
    runTask library below depth silent i t s =
      (.ok (), (s.report (.announced spacingName depth silent)).update fun w =>
        (w.write v (.vector (spacedPoints start stop n.toNatClampNeg))).markAll [v]) :=
  ht.stores.runTask_eq (hasSlots_of_spacingName ht.name_eq) depth silent
    (countedSpace_eq ht hlow hhigh depth silent) below i s

theorem value_countedSpace (ht : Spaces t n start stop v) (hlow : 2 ≤ n.toInt)
    (hhigh : n.toInt ≤ maxGridLength) (below : Runner) (depth : Nat) (silent : Bool) (i : Nat)
    {s : State} (hs : s.workspace.size = library.catalog.vars.length) :
    (runTask library below depth silent i t s).2.workspace.value v =
      .vector (spacedPoints start stop n.toNatClampNeg) :=
  ht.stores.value_eq (hasSlots_of_spacingName ht.name_eq) depth silent
    (countedSpace_eq ht hlow hhigh depth silent) below i hs

end

/-- **A grid spans its ends if their difference is finite, and only then.** Nothing is bound to the
method but tasks with a number of values and two finite doubles. For every number of values from two
up to the largest one and all finite doubles `start` and `stop`, a task that stores a grid of these
succeeds at every level, silent or not and whatever the run has come to, and it does nothing but
store that many values. They are finite, the first one equals `start` and the last one is `stop`, if
`stop - start` is finite. If it is not, only the last one is what it should be: the first one is not
a number, and those between are infinite. -/
theorem grid_spans_iff_difference_isFinite (n : Int64) (start stop : Float) (hlow : 2 ≤ n.toInt)
    (hhigh : n.toInt ≤ maxGridLength) (hstart : start.isFinite = true)
    (hstop : stop.isFinite = true) :
    (∀ t, t.Expressible library.catalog → (library.catalog.methodAt t.method).name = spacingName →
      ∃ n start stop v, Spaces t n start stop v ∧ start.isFinite = true ∧ stop.isFinite = true) ∧
    ∃ xs : List Float,
      (Spans start stop n.toInt xs ↔ (stop - start).isFinite = true) ∧
      ((stop - start).isFinite = false → Spoiled stop n.toInt xs) ∧
      ∀ t v, Spaces t n start stop v →
        ∀ (below : Runner) (depth : Nat) (silent : Bool) (i : Nat) (s : State),
          let r := runTask library below depth silent i t s
          r = (.ok (), (s.report (.announced spacingName depth silent)).update fun w =>
            (w.write v (.vector xs)).markAll [v]) ∧
          (s.workspace.size = library.catalog.vars.length →
            r.2.workspace.value v = .vector xs) := by
  obtain ⟨m, hn⟩ : ∃ m : Nat, n.toInt = (m + 1 : Nat) := ⟨(n.toInt - 1).toNat, by omega⟩
  have hm : n.toNatClampNeg = m + 1 := by rw [Int64.toNatClampNeg, hn, Int.toNat_natCast]
  have hpos : 0 < m := by omega
  have hle : m ≤ 2 ^ 24 := by
    unfold maxGridLength at hhigh
    omega
  have hspoiled (hd : (stop - start).isFinite = false) :
      Spoiled stop n.toInt (spacedPoints start stop n.toNatClampNeg) := by
    rw [hn, hm]
    exact spoiled_spacedPoints hstart hstop hpos hle hd
  refine ⟨fun t ht hname => spaces_of_expressible ht hname, spacedPoints start stop n.toNatClampNeg,
    ⟨fun hspans => ?_, fun hd => ?_⟩, hspoiled, ?_⟩
  · by_contra hd
    exact (hspoiled (Bool.eq_false_iff.mpr hd)).not_spans hspans
  · rw [hn, hm]
    exact spans_spacedPoints hstart hstop hpos hle hd
  · intro t v ht below depth silent i s
    exact ⟨runTask_countedSpace ht hlow hhigh below depth silent i s,
      value_countedSpace ht hlow hhigh below depth silent i⟩

/-- A vector of the standard library. -/
def frequencyGrid : VariableId := ⟨11⟩

/-- The task that stores a grid there. -/
def spacingTask (n : Int64) (start stop : Float) : Task :=
  ⟨⟨8⟩, [.index n, .numeric start, .numeric stop], [frequencyGrid], [], none⟩

theorem spaces_spacingTask (n : Int64) (start stop : Float) :
    Spaces (spacingTask n start stop) n start stop frequencyGrid := by
  have hname : (library.catalog.methodAt ⟨8⟩).name = spacingName := by decide +kernel
  exact ⟨hname, rfl, rfl, rfl, by decide +kernel, by decide +kernel⟩

/-- Three values from one to three. -/
theorem spacingTask_stores :
    ∃ xs after, runTask library (execute library 64 64) 0 false 0 (spacingTask 3 1 3)
        ⟨Workspace.fresh library.catalog, #[]⟩ = (.ok (), after) ∧
      after.workspace.value frequencyGrid = .vector xs ∧ Spans 1 3 3 xs := by
  obtain ⟨-, xs, hspans, -, hstores⟩ := grid_spans_iff_difference_isFinite 3 1 3 (by decide)
    (by decide) (by decide +kernel) (by decide +kernel)
  obtain ⟨hrun, hvalue⟩ := hstores _ _ (spaces_spacingTask 3 1 3) (execute library 64 64) 0 false 0
    ⟨Workspace.fresh library.catalog, #[]⟩
  rw [hrun] at hvalue
  exact ⟨xs, _, hrun, hvalue Workspace.size_fresh, hspans.mpr (by decide +kernel)⟩

/-- Not all grids span their ends: these are too far apart for a difference. -/
theorem not_all_grids_span :
    ¬ ∀ (n : Int64) (start stop : Float), 2 ≤ n.toInt → n.toInt ≤ maxGridLength →
      start.isFinite = true → stop.isFinite = true → ∀ t v, Spaces t n start stop v →
      ∀ (below : Runner) (depth : Nat) (silent : Bool) (i : Nat) (s : State),
        s.workspace.size = library.catalog.vars.length →
        ∃ xs after, runTask library below depth silent i t s = (.ok (), after) ∧
          after.workspace.value v = .vector xs ∧ Spans start stop n.toInt xs := by
  intro hall
  obtain ⟨x, hx, hinfinite⟩ : ∃ x ∈ spacedPoints (-1e308) 1e308 (2 : Int64).toNatClampNeg,
      x.isFinite = false := by decide +kernel
  have htask := spaces_spacingTask 2 (-1e308) 1e308
  obtain ⟨xs, after, hrun, hvalue, hspans⟩ := hall 2 (-1e308) 1e308 (by decide) (by decide)
    (by decide +kernel) (by decide +kernel) _ _ htask (execute library 64 64) 0 false 0
    ⟨Workspace.fresh library.catalog, #[]⟩ Workspace.size_fresh
  have hstored := value_countedSpace htask (by decide) (by decide) (execute library 64 64) 0 false 0
    (s := ⟨Workspace.fresh library.catalog, #[]⟩) Workspace.size_fresh
  rw [hrun] at hstored
  obtain rfl := Value.vector.inj (hvalue.symm.trans hstored)
  exact Bool.false_ne_true (hinfinite.symm.trans (hspans.finite x hx))

end Runbook.Standard
