import Runbook.Proofs.Decimal.Bits
import Runbook.Proofs.Decimal.Rounding
import Runbook.Proofs.Spelling.Tokens
import Runbook.Proofs.Grammar.Literals

/-!
# Values and their literals

Which values can be written in the place of a keyword, and that they are what literals stand for:
the literal of such a value is converted back to it, and whatever a scanned literal is converted to
is such a value.

* `Value.Clean`: what is in the value can be written.
* `Value.Fits`: the value belongs in the place of a keyword of a given group.
* `coerce_literal`: the literal of a value that fits is converted back.
* `fits_of_coerce`: what a literal is converted to fits.
-/

namespace Runbook

/-! ## Doubles from integers -/

namespace Double

/-- A ratio below `2 ^ 64` is rounded to a finite double. -/
theorem roundRatio_lt {n : Nat} (hn : 0 < n) (hlt : n < 2 ^ 64) :
    roundRatio n 1 < infinityBits := by
  obtain ⟨hl1, hl2⟩ := floorLog2_bounds hn Nat.one_pos
  rw [Nat.cast_one, div_one] at hl1 hl2
  unfold roundRatio
  simp only
  generalize hl : floorLog2 n 1 = l at *
  have hupper : l < 64 := by
    have : (2 : ℚ) ^ l < 2 ^ (64 : Int) := by
      refine hl1.trans_lt ?_
      rw [show (2 : ℚ) ^ (64 : Int) = ((2 ^ 64 : Nat) : ℚ) by norm_num]
      exact_mod_cast hlt
    exact (zpow_lt_zpow_iff_right₀ (by norm_num)).mp this
  have hlower : 0 ≤ l := by
    have : (2 : ℚ) ^ (0 : Int) < 2 ^ (l + 1) := by
      refine lt_of_le_of_lt ?_ hl2
      simpa using (by exact_mod_cast hn : (1 : ℚ) ≤ n)
    have := (zpow_lt_zpow_iff_right₀ (by norm_num : (1 : ℚ) < 2)).mp this
    omega
  have he : max (l - 52) (-1074) = l - 52 := max_eq_left (by omega)
  rw [he]
  obtain ⟨hp1, hp2⟩ := powerRatio_pos two_pos (l - 52)
  have hpow := powerRatio_div two_pos (l - 52)
  rw [Nat.cast_ofNat] at hpow
  have hp1' : (0 : ℚ) < (powerRatio 2 (l - 52)).1 := by exact_mod_cast hp1
  have hp2' : (0 : ℚ) < (powerRatio 2 (l - 52)).2 := by exact_mod_cast hp2
  -- the mantissa has at most 53 bits
  have hquot : n * (powerRatio 2 (l - 52)).2 / (1 * (powerRatio 2 (l - 52)).1) < 2 ^ 53 := by
    rw [one_mul, Nat.div_lt_iff_lt_mul hp1]
    have : (n : ℚ) * (powerRatio 2 (l - 52)).2 < 2 ^ 53 * (powerRatio 2 (l - 52)).1 := by
      have hsplit : (2 : ℚ) ^ (l + 1) = 2 ^ 53 * 2 ^ (l - 52) := by
        rw [← zpow_natCast, ← zpow_add₀ two_ne_zero]; congr 1; push_cast; ring
      rw [hsplit, ← hpow, ← mul_div_assoc, lt_div_iff₀ hp2'] at hl2
      exact hl2
    exact_mod_cast this
  have hround :
      roundDiv (n * (powerRatio 2 (l - 52)).2) (1 * (powerRatio 2 (l - 52)).1) ≤ 2 ^ 53 := by
    unfold roundDiv
    simp only
    split <;> omega
  refine lt_of_le_of_lt (min_le_left _ _) ?_
  have : (l - 52 + 1074).toNat ≤ 1085 := by omega
  have := Nat.mul_le_mul_right fractionSize this
  unfold infinityBits
  have : fractionSize = 2 ^ 52 := rfl
  omega

/-- **The double nearest to a 64-bit integer is finite.** -/
theorem isFinite_ofInt (i : Int64) : (ofInt i.toInt).isFinite = true := by
  unfold ofInt
  apply isFinite_withSign
  split
  case isTrue => decide
  case isFalse h =>
    have hl := i.minValue_le_toInt
    have hu := i.toInt_le
    have hmin : Int64.minValue.toInt = -2 ^ 63 := rfl
    have hmax : Int64.maxValue.toInt = 2 ^ 63 - 1 := rfl
    exact roundRatio_lt (by omega) (by omega)

end Double

/-! ## Values that can be written -/

namespace Value

/-- Numbers are finite, strings can stand between quotes, and a matrix without rows has no
columns. -/
def Clean : Value → Prop
  | numeric x => x.isFinite = true
  | string s => Quotable s
  | vector xs => ∀ x ∈ xs, x.isFinite = true
  | stringArray ss => ∀ s ∈ ss, Quotable s
  | matrix m => (∀ x ∈ m.entries, x.isFinite = true) ∧ (m.rows = 0 → m.cols = 0)
  | index _ | indexArray _ | pipeline _ => True

/-- Values other than vectors that are written as an empty list. -/
def IsEmptyList : Value → Prop
  | indexArray is => is = []
  | stringArray ss => ss = []
  | matrix m => m.rows = 0
  | _ => False

/-- The value belongs in the place of a keyword of group `g`. Where `g` is `any` the text alone has
to tell the group. -/
def Fits (g : Group) (v : Value) : Prop :=
  if g = .any then v.group ≠ .pipeline ∧ ¬ v.IsEmptyList else v.group = g

theorem group_ne_pipeline_of_fits {g : Group} {v : Value} (hg : g ≠ .pipeline) (h : v.Fits g) :
    v.group ≠ .pipeline := by
  unfold Fits at h
  split at h
  case isTrue => exact h.1
  case isFalse => rw [h]; exact hg

/-- The literal that is written for the value; for a pipeline there is none. -/
def literal : Value → Literal
  | index i => .integer i
  | numeric x => .number x
  | string s => .string s
  | vector xs => .list (xs.map .number)
  | indexArray is => .list (is.map .integer)
  | stringArray ss => .list (ss.map .string)
  | matrix m => .list (m.toRows.map fun row => .list (row.map .number))
  | pipeline _ => .list []

end Value

/-! ## Lists of literals -/

theorem mapM_map_some {α β : Type} {f : α → β} {g : β → Option α} (h : ∀ x, g (f x) = some x)
    (xs : List α) : (xs.map f).mapM g = some xs := by
  induction xs with
  | nil => rfl
  | cons x xs ih => simp [List.mapM_cons, h, ih]

theorem mem_of_mapM {α β : Type} {f : α → Option β} {xs : List α} {ys : List β}
    (h : xs.mapM f = some ys) : ∀ y ∈ ys, ∃ x ∈ xs, f x = some y := by
  induction xs generalizing ys with
  | nil => cases h; simp
  | cons x xs ih =>
    rw [List.mapM_cons] at h
    obtain ⟨y, hy, h⟩ := Option.bind_eq_some_iff.mp h
    obtain ⟨rest, hrest, h⟩ := Option.bind_eq_some_iff.mp h
    cases h
    rintro z (_ | ⟨_, hz⟩)
    · exact ⟨x, by simp, hy⟩
    · obtain ⟨x', hx', heq⟩ := ih hrest z hz
      exact ⟨x', by simp [hx'], heq⟩

theorem length_of_mapM {α β : Type} {f : α → Option β} {xs : List α} {ys : List β}
    (h : xs.mapM f = some ys) : ys.length = xs.length := by
  induction xs generalizing ys with
  | nil => cases h; rfl
  | cons x xs ih =>
    rw [List.mapM_cons] at h
    obtain ⟨y, hy, h⟩ := Option.bind_eq_some_iff.mp h
    obtain ⟨rest, hrest, h⟩ := Option.bind_eq_some_iff.mp h
    cases h
    simp [ih hrest]

theorem getElem?_of_forall₂ {α β : Type} {R : α → β → Prop} {xs : List α} {ys : List β}
    (h : List.Forall₂ R xs ys) {i : Nat} {x : α} (hx : xs[i]? = some x) :
    ∃ y, ys[i]? = some y ∧ R x y := by
  obtain ⟨hi, rfl⟩ := List.getElem?_eq_some_iff.mp hx
  have hi' : i < ys.length := h.length_eq ▸ hi
  exact ⟨ys[i], List.getElem?_eq_getElem hi', h.get hi hi'⟩

/-! ## Rows of a matrix -/

namespace Matrix

theorem flatten_rows (m : Matrix) {n : Nat} (hn : n ≤ m.rows) :
    ((List.range n).map m.row).flatten = m.entries.take (n * m.cols) := by
  induction n with
  | zero => simp
  | succ n ih =>
    rw [List.range_succ, List.map_append, List.flatten_append, ih (by omega), Nat.succ_mul,
      List.take_add]
    simp [row]

theorem flatten_toRows (m : Matrix) : m.toRows.flatten = m.entries := by
  rw [toRows, flatten_rows m le_rfl, ← m.length_eq, List.take_length]

theorem raggedRow?_eq_none {cols i : Nat} {rows : List (List Float)}
    (h : ∀ row ∈ rows, row.length = cols) : raggedRow? cols i rows = none := by
  induction rows generalizing i with
  | nil => rfl
  | cons row rows ih =>
    rw [raggedRow?, if_pos (h row (by simp))]
    exact ih fun r hr => h r (by simp [hr])

/-- **A matrix is made again from its rows**, unless it has columns but no rows. -/
theorem ofRows_toRows {m : Matrix} (h : m.rows = 0 → m.cols = 0) : ofRows m.toRows = .ok m := by
  have hall : ∀ row ∈ m.toRows, row.length = m.cols := by
    intro row hrow
    obtain ⟨r, hr, rfl⟩ := List.mem_map.mp hrow
    exact length_row (List.mem_range.mp hr)
  have hlen : m.toRows.length = m.rows := by simp [toRows]
  have hcols : (m.toRows.head?.map List.length).getD 0 = m.cols := by
    cases hrows : m.toRows with
    | nil => exact (h (by rw [← hlen, hrows]; rfl)).symm
    | cons row rows => exact hall row (by simp [hrows])
  have hflat := m.flatten_toRows
  unfold ofRows
  simp only
  split
  case h_1 hragged =>
    rw [hcols, raggedRow?_eq_none hall] at hragged
    cases hragged
  case h_2 =>
    obtain ⟨rows, cols, entries, hentries⟩ := m
    simp only [Except.ok.injEq, Matrix.mk.injEq]
    exact ⟨hlen, hcols, hflat⟩

/-- What is known of a matrix made from rows. -/
theorem of_ofRows {rows : List (List Float)} {m : Matrix} (h : ofRows rows = .ok m) :
    m.entries = rows.flatten ∧ m.rows = rows.length ∧ (m.rows = 0 → m.cols = 0) := by
  unfold ofRows at h
  simp only at h
  split at h
  case h_1 => cases h
  case h_2 =>
    cases h
    refine ⟨rfl, rfl, fun h0 => ?_⟩
    obtain rfl := List.length_eq_zero_iff.mp h0
    rfl

end Matrix

/-! ## From values to literals and back -/

namespace Literal

theorem toNumbers?_list_map (xs : List Float) : toNumbers? (.list (xs.map .number)) = some xs :=
  mapM_map_some (f := Literal.number) (g := toFloat?) (fun _ => rfl) xs

/-- The literal of a value stands for it where its own group is declared. -/
theorem coerceTo?_literal {v : Value} (hc : v.Clean) (hp : v.group ≠ .pipeline) :
    coerceTo? v.group v.literal = some v := by
  cases v with
  | index i => rfl
  | numeric x => rfl
  | string s => rfl
  | vector xs => simp [coerceTo?, Value.group, Value.literal, toNumbers?_list_map]
  | indexArray is =>
    have := mapM_map_some (f := Literal.integer) (g := toInteger?) (fun _ => rfl) is
    simp only [coerceTo?, Value.group, Value.literal, this, Option.map_some]
  | stringArray ss =>
    have := mapM_map_some (f := Literal.string) (g := toText?) (fun _ => rfl) ss
    simp only [coerceTo?, Value.group, Value.literal, this, Option.map_some]
  | matrix m =>
    have hrows : (m.toRows.map fun row => Literal.list (row.map .number)).mapM toNumbers? =
        some m.toRows := mapM_map_some toNumbers?_list_map m.toRows
    simp [coerceTo?, Value.group, Value.literal, matrixOfRows?, hrows, Matrix.ofRows_toRows hc.2,
      Except.toOption]
  | pipeline p => exact absurd rfl hp

/-- A literal tells the group of its value, unless it is an empty list. -/
theorem naturalGroup_literal {v : Value} (hp : v.group ≠ .pipeline) (he : ¬ v.IsEmptyList) :
    v.literal.naturalGroup = v.group := by
  cases v with
  | index i => rfl
  | numeric x => rfl
  | string s => rfl
  | vector xs => cases xs <;> simp [naturalGroup, Value.literal, Value.group, toInteger?]
  | indexArray is =>
    cases is with
    | nil => exact absurd rfl he
    | cons i is => simp [naturalGroup, Value.literal, Value.group, toInteger?]
  | stringArray ss =>
    cases ss with
    | nil => exact absurd rfl he
    | cons s ss => rfl
  | matrix m =>
    cases hrows : m.toRows with
    | nil =>
      have : m.toRows.length = m.rows := by simp [Matrix.toRows]
      exact absurd (show m.rows = 0 by rw [← this, hrows]; rfl) he
    | cons row rows => simp [naturalGroup, Value.literal, Value.group, hrows]
  | pipeline p => exact absurd rfl hp

/-- **The literal of a value that fits is converted back to the value.** -/
theorem coerce_literal {g : Group} {v : Value} (hg : g ≠ .pipeline) (hf : v.Fits g)
    (hc : v.Clean) : v.literal.coerce? g = some v := by
  unfold Value.Fits at hf
  unfold coerce?
  split at hf
  case isTrue hany =>
    rw [if_pos hany, naturalGroup_literal hf.1 hf.2]
    exact coerceTo?_literal hc hf.1
  case isFalse hany =>
    rw [if_neg hany, ← hf]
    exact coerceTo?_literal hc (hf ▸ hg)

/-! ## From literals to values -/

/-- The literal has been scanned. -/
def Clean (l : Literal) : Prop :=
  ∀ t ∈ l.tokens, t.Clean

theorem clean_of_mem_laterTokens {ls : List Literal} (h : ∀ t ∈ laterTokens ls, t.Clean) :
    ∀ l ∈ ls, l.Clean := by
  induction ls with
  | nil => simp
  | cons m ls ih =>
    simp only [laterTokens, List.mem_cons, List.mem_append] at h
    rintro l (_ | ⟨_, hl⟩)
    · exact fun t ht => h t (.inr (.inl ht))
    · exact ih (fun t ht => h t (.inr (.inr ht))) l hl

theorem clean_of_mem {items : List Literal} (h : (list items).Clean) : ∀ l ∈ items, l.Clean := by
  unfold Clean at h
  simp only [tokens, List.mem_cons, List.mem_append] at h
  cases items with
  | nil => simp
  | cons m ls =>
    simp only [itemTokens, List.mem_append] at h
    rintro l (_ | ⟨_, hl⟩)
    · exact fun t ht => h t (.inr (.inl (.inl ht)))
    · exact clean_of_mem_laterTokens (fun t ht => h t (.inr (.inl (.inr ht)))) l hl

theorem isFinite_of_toFloat? {l : Literal} {x : Float} (hc : l.Clean) (h : l.toFloat? = some x) :
    x.isFinite = true := by
  cases l with
  | integer i => cases h; exact Double.isFinite_ofInt i
  | number y => cases h; exact hc (.number x) (by simp [tokens])
  | string s => cases h
  | list items => cases h

theorem isFinite_of_toNumbers? {l : Literal} {xs : List Float} (hc : l.Clean)
    (h : l.toNumbers? = some xs) : ∀ x ∈ xs, x.isFinite = true := by
  cases l with
  | list items =>
    intro x hx
    obtain ⟨l, hl, hlx⟩ := mem_of_mapM h x hx
    exact isFinite_of_toFloat? (clean_of_mem hc l hl) hlx
  | _ => cases h

theorem exists_rows_of_matrixOfRows? {ls : List Literal} {m : Matrix}
    (h : matrixOfRows? ls = some m) :
    ∃ rows, ls.mapM toNumbers? = some rows ∧ Matrix.ofRows rows = .ok m := by
  unfold matrixOfRows? at h
  split at h
  case h_1 rows hrows =>
    cases hof : Matrix.ofRows rows with
    | error e => rw [hof] at h; cases h
    | ok m' => rw [hof] at h; cases h; exact ⟨rows, hrows, hof⟩
  case h_2 => cases h

/-- What a scanned literal stands for can be written. -/
theorem clean_of_coerceTo? {g : Group} {l : Literal} {v : Value} (hc : l.Clean)
    (h : coerceTo? g l = some v) : v.Clean := by
  unfold coerceTo? at h
  split at h
  case h_1 => cases h; trivial
  case h_2 =>
    obtain ⟨x, hx, rfl⟩ := Option.map_eq_some_iff.mp h
    exact isFinite_of_toFloat? hc hx
  case h_3 s => cases h; exact hc (.string s) (by simp [tokens])
  case h_4 =>
    obtain ⟨xs, hxs, rfl⟩ := Option.map_eq_some_iff.mp h
    exact isFinite_of_toNumbers? hc hxs
  case h_5 =>
    obtain ⟨is, -, rfl⟩ := Option.map_eq_some_iff.mp h
    trivial
  case h_6 items =>
    obtain ⟨ss, hss, rfl⟩ := Option.map_eq_some_iff.mp h
    intro s hs
    obtain ⟨l, hl, hls⟩ := mem_of_mapM hss s hs
    cases l with
    | string s' => cases hls; exact clean_of_mem hc _ hl (.string s) (by simp [tokens])
    | _ => cases hls
  case h_7 rows =>
    obtain ⟨m, hm, rfl⟩ := Option.map_eq_some_iff.mp h
    obtain ⟨rows', hrows, hof⟩ := exists_rows_of_matrixOfRows? hm
    obtain ⟨hentries, -, hempty⟩ := Matrix.of_ofRows hof
    refine ⟨fun x hx => ?_, hempty⟩
    rw [hentries] at hx
    obtain ⟨row, hrow, hx⟩ := List.mem_flatten.mp hx
    obtain ⟨l, hl, hlrow⟩ := mem_of_mapM hrows row hrow
    exact isFinite_of_toNumbers? (clean_of_mem hc l hl) hlrow x hx
  case h_8 => cases h

/-- A literal is never taken for a pipeline, nor for a list that it could not be told from a
vector. -/
theorem not_isEmptyList_of_naturalGroup {l : Literal} {v : Value}
    (h : coerceTo? l.naturalGroup l = some v) : v.group ≠ .pipeline ∧ ¬ v.IsEmptyList := by
  have hgroup := group_coerceTo? h
  cases l with
  | integer i => cases h; exact ⟨by simp [Value.group], id⟩
  | number x => cases h; exact ⟨by simp [Value.group], id⟩
  | string s => cases h; exact ⟨by simp [Value.group], id⟩
  | list items =>
    cases items with
    | nil => cases h; exact ⟨by simp [Value.group], id⟩
    | cons l ls =>
      have hlen : (l :: ls).length ≠ 0 := by simp
      unfold coerceTo? at h
      split at h
      case h_1 => cases h; exact ⟨by simp [Value.group], id⟩
      case h_2 =>
        obtain ⟨x, hx, rfl⟩ := Option.map_eq_some_iff.mp h
        exact ⟨by simp [Value.group], id⟩
      case h_3 => cases h; exact ⟨by simp [Value.group], id⟩
      case h_4 =>
        obtain ⟨xs, hxs, rfl⟩ := Option.map_eq_some_iff.mp h
        exact ⟨by simp [Value.group], id⟩
      case h_5 items heq =>
        obtain ⟨is, his, rfl⟩ := Option.map_eq_some_iff.mp h
        refine ⟨by simp [Value.group], fun hnil => hlen ?_⟩
        cases heq
        rw [← length_of_mapM his, show is = [] from hnil]
        rfl
      case h_6 items heq =>
        obtain ⟨ss, hss, rfl⟩ := Option.map_eq_some_iff.mp h
        refine ⟨by simp [Value.group], fun hnil => hlen ?_⟩
        cases heq
        rw [← length_of_mapM hss, show ss = [] from hnil]
        rfl
      case h_7 rows heq =>
        obtain ⟨m, hm, rfl⟩ := Option.map_eq_some_iff.mp h
        refine ⟨by simp [Value.group], fun hzero => hlen ?_⟩
        cases heq
        obtain ⟨rows', hrows, hof⟩ := exists_rows_of_matrixOfRows? hm
        rw [← length_of_mapM hrows, ← (Matrix.of_ofRows hof).2.1]
        exact hzero
      case h_8 => cases h

/-- **What a scanned literal is converted to fits, and can be written.** -/
theorem fits_of_coerce {g : Group} {l : Literal} {v : Value} (hc : l.Clean)
    (h : l.coerce? g = some v) : v.Fits g ∧ v.Clean := by
  unfold coerce? at h
  refine ⟨?_, clean_of_coerceTo? hc h⟩
  unfold Value.Fits
  split
  case isTrue hany =>
    rw [if_pos hany] at h
    exact not_isEmptyList_of_naturalGroup h
  case isFalse hany =>
    rw [if_neg hany] at h
    exact group_coerceTo? h

end Literal
end Runbook
