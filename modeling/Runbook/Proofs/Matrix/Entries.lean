import Runbook.Proofs.Matrix.Rows

/-!
# Entries of a matrix

Every place within the shape of a matrix has its own entry, and every entry is in such a place. So a
call that sets an entry changes what is read there and nowhere else, and what is read after many
calls is what the last of them has put there.

* `index_inj`: different places have different entries.
* `map_some_row`: a row is the list of its entries.
* `set_eq_ok_iff`: what one call does. `of_assignAll`: what a sequence of calls does.
* `get?_zeros`, `ofEntries_eq_ok_iff`, `get?_of_ofRows`: what is read from a new matrix.
* `RowMajor`: what can be relied on for every matrix. `rowMajor`: it can.
-/

namespace Runbook.Matrix

/-! ## Places -/

/-- The row of an entry. -/
theorem index_div {cols r c : Nat} (hc : c < cols) : (r * cols + c) / cols = r := by
  rw [Nat.mul_comm, Nat.mul_add_div (Nat.zero_lt_of_lt hc), Nat.div_eq_of_lt hc, Nat.add_zero]

/-- **Different places have different entries.** -/
theorem index_inj {cols r c i j : Nat} (hc : c < cols) (hj : j < cols)
    (h : i * cols + j = r * cols + c) : i = r ∧ j = c := by
  obtain rfl : i = r := (index_div hj).symm.trans ((congrArg (· / cols) h).trans (index_div hc))
  exact ⟨rfl, Nat.add_left_cancel h⟩

variable {m : Matrix} {r c : Nat} {x : Float}

theorem get?_of_not_lt (h : ¬(r < m.rows ∧ c < m.cols)) : m.get? r c = none :=
  if_neg h

theorem isSome_get?_iff : (m.get? r c).isSome ↔ r < m.rows ∧ c < m.cols := by
  rw [Option.isSome_iff_ne_none, ne_eq, get?_eq_none_iff]
  omega

/-! ## Rows -/

theorem slice_le (hr : r < m.rows) : (r + 1) * m.cols ≤ m.entries.length := by
  rw [m.length_eq]
  exact Nat.mul_le_mul_right _ hr

theorem getElem?_row (hr : r < m.rows) (hc : c < m.cols) : (m.row r)[c]? = m.get? r c := by
  rw [row, List.getElem?_take_of_lt hc, List.getElem?_drop, get?_of_lt hr hc]

/-- A row is the list of its entries. -/
theorem map_some_row (hr : r < m.rows) :
    (m.row r).map some = (List.range m.cols).map (m.get? r) := by
  refine List.ext_getElem? fun c => ?_
  rw [List.getElem?_map, List.getElem?_map]
  rcases Nat.lt_or_ge c m.cols with hc | hc
  · rw [getElem?_row hr hc, List.getElem?_range hc]
    obtain ⟨x, hx⟩ := Option.isSome_iff_exists.mp (isSome_get?_iff.mpr ⟨hr, hc⟩)
    rw [Option.map_some, hx]
    rfl
  · have hrow : (m.row r).length ≤ c := by rwa [length_row hr]
    rw [List.getElem?_eq_none hrow, List.getElem?_eq_none (by rwa [List.length_range])]
    rfl

theorem row?_eq_some_iff {xs : List Float} :
    m.row? r = some xs ↔ r < m.rows ∧ xs.map some = (List.range m.cols).map (m.get? r) := by
  rw [row?]
  split
  case isTrue hr =>
    rw [Option.some.injEq, ← map_some_row hr]
    constructor
    · rintro rfl
      exact ⟨hr, rfl⟩
    · rintro ⟨-, h⟩
      exact (List.map_injective_iff.mpr (Option.some_injective _) h).symm
  case isFalse hr => exact iff_of_false nofun fun h => hr h.1

theorem map_some_toRows : m.toRows.map some = (List.range m.rows).map m.row? := by
  rw [toRows, List.map_map]
  refine List.map_congr_left fun r hr => ?_
  rw [row?, if_pos (List.mem_range.mp hr)]
  rfl

/-! ## Setting entries -/

theorem of_set {n : Matrix} (h : m.set r c x = .ok n) :
    (r < m.rows ∧ c < m.cols) ∧ n.rows = m.rows ∧ n.cols = m.cols ∧
      n.entries = m.entries.set (r * m.cols + c) x := by
  unfold set at h
  split at h
  case isTrue hin => cases h; exact ⟨hin, rfl, rfl, rfl⟩
  case isFalse => cases h

theorem get?_of_set {n : Matrix} (h : m.set r c x = .ok n) (i j : Nat) :
    n.get? i j = if i = r ∧ j = c then some x else m.get? i j := by
  obtain ⟨⟨hr, hc⟩, hrows, hcols, hentries⟩ := of_set h
  by_cases hplace : i < m.rows ∧ j < m.cols
  · obtain ⟨hi, hj⟩ := hplace
    rw [get?_of_lt (hrows ▸ hi) (hcols ▸ hj), get?_of_lt hi hj, hentries, hcols, List.getElem?_set]
    by_cases heq : i = r ∧ j = c
    · obtain ⟨rfl, rfl⟩ := heq
      rw [if_pos rfl, if_pos (index_lt hr hc), if_pos ⟨rfl, rfl⟩]
    · rw [if_neg fun h => heq (index_inj hc hj h.symm), if_neg heq]
  · have heq : ¬(i = r ∧ j = c) := by
      rintro ⟨rfl, rfl⟩
      exact hplace ⟨hr, hc⟩
    rw [if_neg heq, get?_of_not_lt hplace, get?_of_not_lt (by rwa [hrows, hcols])]

/-- **What a call that sets an entry does**: it changes what is read in one place. -/
theorem set_eq_ok_iff {n : Matrix} :
    m.set r c x = .ok n ↔ (r < m.rows ∧ c < m.cols) ∧ n.rows = m.rows ∧ n.cols = m.cols ∧
      ∀ i j, n.get? i j = if i = r ∧ j = c then some x else m.get? i j := by
  constructor
  · intro h
    obtain ⟨hin, hrows, hcols, -⟩ := of_set h
    exact ⟨hin, hrows, hcols, get?_of_set h⟩
  · rintro ⟨hin, hrows, hcols, hentries⟩
    obtain ⟨k, hk⟩ : ∃ k, m.set r c x = .ok k := ⟨_, if_pos hin⟩
    obtain ⟨-, hrows', hcols', -⟩ := of_set hk
    rw [hk]
    refine congrArg Except.ok (ext_get? (hrows'.trans hrows.symm) (hcols'.trans hcols.symm) ?_)
    intro i _ j _
    rw [get?_of_set hk, hentries]

theorem set_eq_error_iff {f : MatrixFault} :
    m.set r c x = .error f ↔
      ¬(r < m.rows ∧ c < m.cols) ∧ f = .outOfRange r c m.rows m.cols := by
  unfold set
  split
  case isTrue h => exact iff_of_false (by simp) fun hf => hf.1 h
  case isFalse h =>
    rw [Except.error.injEq]
    exact ⟨fun hf => ⟨h, hf.symm⟩, fun hf => hf.2.symm⟩

/-- A call that sets an entry. -/
structure Assignment where
  row : Nat
  col : Nat
  value : Float

/-- The matrix after the call, which may have failed. -/
def assign (m : Matrix) (a : Assignment) : Matrix :=
  match m.set a.row a.col a.value with
  | .ok n => n
  | .error _ => m

/-- The matrix after calls, one after the other. -/
def assignAll (m : Matrix) (as : List Assignment) : Matrix :=
  as.foldl assign m

/-- What the last call for a place puts there. -/
def lastValue? (r c : Nat) (as : List Assignment) : Option Float :=
  (as.reverse.find? fun a => r = a.row ∧ c = a.col).map Assignment.value

/-- **A call that fails changes nothing.** -/
theorem assign_of_not_lt {a : Assignment} (h : ¬(a.row < m.rows ∧ a.col < m.cols)) :
    m.assign a = m := by
  rw [assign, set_eq_error_iff.mpr ⟨h, rfl⟩]

theorem of_assign (m : Matrix) (a : Assignment) :
    (m.assign a).rows = m.rows ∧ (m.assign a).cols = m.cols ∧
      ∀ i j, i < m.rows → j < m.cols →
        (m.assign a).get? i j = if i = a.row ∧ j = a.col then some a.value else m.get? i j := by
  by_cases h : a.row < m.rows ∧ a.col < m.cols
  · obtain ⟨n, hn⟩ : ∃ n, m.set a.row a.col a.value = .ok n := ⟨_, if_pos h⟩
    obtain ⟨-, hrows, hcols, hentries⟩ := set_eq_ok_iff.mp hn
    rw [assign, hn]
    exact ⟨hrows, hcols, fun i j _ _ => hentries i j⟩
  · rw [assign_of_not_lt h]
    refine ⟨rfl, rfl, fun i j hi hj => ?_⟩
    rw [if_neg]
    rintro ⟨rfl, rfl⟩
    exact h ⟨hi, hj⟩

/-- **What is read after many calls**: what the last one for the place has put there. -/
theorem of_assignAll (m : Matrix) (as : List Assignment) :
    (m.assignAll as).rows = m.rows ∧ (m.assignAll as).cols = m.cols ∧
      ∀ i j, i < m.rows → j < m.cols →
        (m.assignAll as).get? i j = (lastValue? i j as).or (m.get? i j) := by
  induction as using List.reverseRecOn with
  | nil => exact ⟨rfl, rfl, fun i j _ _ => rfl⟩
  | append_singleton as a ih =>
    obtain ⟨hrows, hcols, hentries⟩ := ih
    obtain ⟨hrows', hcols', hentries'⟩ := of_assign (m.assignAll as) a
    have hstep : m.assignAll (as ++ [a]) = (m.assignAll as).assign a := by
      rw [assignAll, List.foldl_append]
      rfl
    rw [hstep]
    refine ⟨hrows'.trans hrows, hcols'.trans hcols, fun i j hi hj => ?_⟩
    rw [hentries' i j (hrows ▸ hi) (hcols ▸ hj), hentries i j hi hj, lastValue?, lastValue?,
      List.reverse_concat, List.find?_cons]
    by_cases heq : i = a.row ∧ j = a.col
    · simp [heq]
    · simp [heq]

/-! ## New matrices -/

theorem get?_zeros {rows cols : Nat} (hr : r < rows) (hc : c < cols) :
    (zeros rows cols).get? r c = some 0 := by
  have hlt := index_lt (m := zeros rows cols) hr hc
  rw [get?_of_lt (m := zeros rows cols) hr hc]
  simp only [zeros, List.length_replicate] at hlt ⊢
  rw [List.getElem?_replicate, if_pos hlt]

theorem ofEntries_eq_ok_iff {rows cols : Nat} {xs : List Float} :
    ofEntries rows cols xs = .ok m ↔
      xs.length = rows * cols ∧ m.rows = rows ∧ m.cols = cols ∧
        ∀ r c, r < rows → c < cols → m.get? r c = xs[r * cols + c]? := by
  constructor
  · intro h
    unfold ofEntries at h
    split at h
    case isTrue hlength =>
      cases h
      exact ⟨hlength, rfl, rfl, fun r c hr hc => get?_of_lt hr hc⟩
    case isFalse => cases h
  · rintro ⟨hlength, rfl, rfl, hentries⟩
    rw [ofEntries, dif_pos hlength]
    refine congrArg Except.ok (ext_get? rfl rfl fun r hr c hc => ?_)
    rw [hentries r c hr hc, get?_of_lt hr hc]

theorem exists_ofEntries_iff {rows cols : Nat} {xs : List Float} :
    (∃ m, ofEntries rows cols xs = .ok m) ↔ xs.length = rows * cols := by
  constructor
  · rintro ⟨m, hm⟩
    exact (ofEntries_eq_ok_iff.mp hm).1
  · exact fun h => ⟨_, dif_pos h⟩

/-- A matrix can be made of rows that are equally long, and of no others. -/
theorem exists_ofRows_iff {rows : List (List Float)} :
    (∃ m, ofRows rows = .ok m) ↔ ∀ a ∈ rows, ∀ b ∈ rows, a.length = b.length := by
  constructor
  · rintro ⟨m, hm⟩ a ha b hb
    have hrows := hasRows_of_ofRows hm
    rw [hrows.length_row a ha, hrows.length_row b hb]
  · intro h
    unfold ofRows
    simp only
    split
    case h_2 => exact ⟨_, rfl⟩
    case h_1 hragged =>
      cases rows with
      | nil => cases hragged
      | cons row rows =>
        have hall : ∀ b ∈ row :: rows, b.length = row.length := fun b hb =>
          h b hb row List.mem_cons_self
        rw [List.head?_cons, Option.map_some, Option.getD_some, raggedRow?_eq_none hall] at hragged
        cases hragged

/-- What is read in a place of a matrix stands there in the rows that it was made of. -/
theorem get?_of_ofRows {rows : List (List Float)} (h : ofRows rows = .ok m) (r c : Nat) :
    m.get? r c = rows[r]?.bind (·[c]?) := by
  have hrows := hasRows_of_ofRows h
  rcases hrow : rows[r]? with _ | row
  · rw [get?_eq_none_iff.mpr (.inl (hrows.rows_eq ▸ List.getElem?_eq_none_iff.mp hrow))]
    rfl
  · rw [Option.bind_some]
    rcases hx : row[c]? with _ | x
    · have hlength := hrows.length_row row (List.mem_of_getElem? hrow)
      rw [get?_eq_none_iff.mpr (.inr (hlength ▸ List.getElem?_eq_none_iff.mp hx))]
    · exact hrows.entry r c row x hrow hx

/-- The rows of a matrix make it again if there are any. -/
theorem ofRows_toRows_of_pos (h : 0 < m.rows) : ofRows m.toRows = .ok m :=
  ofRows_toRows fun hzero => absurd hzero h.ne'

/-! ## Every matrix -/

/-- What can be relied on for a matrix. -/
structure RowMajor (m : Matrix) : Prop where
  size_lt : m.rows * m.cols < 2 ^ 64
  length_entries : m.entries.length = m.rows * m.cols
  isSome_get?_iff : ∀ r c, (m.get? r c).isSome ↔ r < m.rows ∧ c < m.cols
  /-- Neither a place nor the end of a row is outside the entries. -/
  slice_le : ∀ r < m.rows, (r + 1) * m.cols ≤ m.entries.length ∧
    ∀ c < m.cols, r * m.cols + c < m.entries.length
  row?_eq_some_iff : ∀ r xs,
    m.row? r = some xs ↔ r < m.rows ∧ xs.map some = (List.range m.cols).map (m.get? r)
  set_eq_ok_iff : ∀ r c x n,
    m.set r c x = .ok n ↔ (r < m.rows ∧ c < m.cols) ∧ n.rows = m.rows ∧ n.cols = m.cols ∧
      ∀ i j, n.get? i j = if i = r ∧ j = c then some x else m.get? i j
  set_eq_error_iff : ∀ r c x f,
    m.set r c x = .error f ↔ ¬(r < m.rows ∧ c < m.cols) ∧ f = .outOfRange r c m.rows m.cols
  assign_of_not_lt : ∀ a : Assignment, ¬(a.row < m.rows ∧ a.col < m.cols) → m.assign a = m
  map_some_toRows : m.toRows.map some = (List.range m.rows).map m.row?
  ofRows_toRows : 0 < m.rows → ofRows m.toRows = .ok m

/-- **Every matrix is stored row by row**, in entries that its places and rows do not leave. -/
theorem rowMajor (h : m.rows * m.cols < 2 ^ 64) : m.RowMajor where
  size_lt := h
  length_entries := m.length_eq
  isSome_get?_iff _ _ := isSome_get?_iff
  slice_le _ hr := ⟨slice_le hr, fun _ hc => index_lt hr hc⟩
  row?_eq_some_iff _ _ := row?_eq_some_iff
  set_eq_ok_iff _ _ _ _ := set_eq_ok_iff
  set_eq_error_iff _ _ _ _ := set_eq_error_iff
  assign_of_not_lt _ := assign_of_not_lt
  map_some_toRows := map_some_toRows
  ofRows_toRows := ofRows_toRows_of_pos

end Runbook.Matrix
