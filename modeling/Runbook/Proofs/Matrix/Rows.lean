import Runbook.Proofs.Roundtrip.Literals

/-!
# Matrices and their rows

A matrix is determined by its shape and its entries, and one is made of rows exactly if these are
equally long: then entry `(r, c)` is number `c` of row `r`.

* `ext_get?`: shape and entries determine the matrix.
* `HasRows`: the matrix has the given rows.
* `ofRows_eq_ok_iff`: a matrix is made of the rows that it has.
-/

namespace Runbook.Matrix

/-! ## Entries -/

theorem get?_of_lt {m : Matrix} {r c : Nat} (hr : r < m.rows) (hc : c < m.cols) :
    m.get? r c = m.entries[r * m.cols + c]? :=
  if_pos ⟨hr, hc⟩

/-- **A matrix is determined by its shape and its entries.** -/
theorem ext_get? {m n : Matrix} (hrows : m.rows = n.rows) (hcols : m.cols = n.cols)
    (h : ∀ r < m.rows, ∀ c < m.cols, m.get? r c = n.get? r c) : m = n := by
  have hentries : m.entries = n.entries := by
    refine List.ext_getElem? fun k => ?_
    rcases Nat.lt_or_ge k (m.rows * m.cols) with hk | hk
    · -- entry `k` stands in row `k / cols` and column `k % cols`
      have hpos : 0 < m.cols := Nat.pos_of_mul_pos_left (Nat.zero_lt_of_lt hk)
      have hr : k / m.cols < m.rows := Nat.div_lt_of_lt_mul (by rwa [Nat.mul_comm])
      have hc : k % m.cols < m.cols := Nat.mod_lt k hpos
      have hentry := h _ hr _ hc
      rw [get?_of_lt hr hc, get?_of_lt (hrows ▸ hr) (hcols ▸ hc), ← hcols] at hentry
      rwa [Nat.mul_comm, Nat.div_add_mod] at hentry
    · rw [List.getElem?_eq_none (by rwa [m.length_eq]),
        List.getElem?_eq_none (by rwa [n.length_eq, ← hrows, ← hcols])]
  obtain ⟨rows, cols, entries, hm⟩ := m
  obtain ⟨rows', cols', entries', hn⟩ := n
  cases hrows
  cases hcols
  cases hentries
  rfl

/-! ## Rows -/

theorem getElem?_flatten {cols : Nat} {rows : List (List Float)}
    (h : ∀ row ∈ rows, row.length = cols) {r c : Nat} {row : List Float} (hr : rows[r]? = some row)
    (hc : c < cols) : rows.flatten[r * cols + c]? = row[c]? := by
  induction rows generalizing r with
  | nil => cases hr
  | cons first rows ih =>
    obtain ⟨hfirst, hrows⟩ := List.forall_mem_cons.mp h
    rw [List.flatten_cons]
    cases r with
    | zero =>
      obtain rfl := Option.some.inj hr
      rw [Nat.zero_mul, Nat.zero_add, List.getElem?_append_left (by omega)]
    | succ r =>
      have hpast : first.length ≤ (r + 1) * cols + c := by
        rw [Nat.add_mul, Nat.one_mul]
        omega
      have hrest : (r + 1) * cols + c - first.length = r * cols + c := by
        rw [Nat.add_mul, Nat.one_mul]
        omega
      rw [List.getElem?_append_right hpast, hrest]
      exact ih hrows hr

theorem raggedRow?_eq_none_iff {cols i : Nat} {rows : List (List Float)} :
    raggedRow? cols i rows = none ↔ ∀ row ∈ rows, row.length = cols := by
  refine ⟨fun h => ?_, raggedRow?_eq_none⟩
  induction rows generalizing i with
  | nil => exact nofun
  | cons row rows ih =>
    rw [raggedRow?] at h
    split at h
    case isTrue hrow => exact List.forall_mem_cons.mpr ⟨hrow, ih h⟩
    case isFalse => cases h

/-- The matrix has the given rows, all of one length: each of their numbers is the entry in its row
and column. Without rows there are no columns. -/
structure HasRows (m : Matrix) (rows : List (List Float)) : Prop where
  rows_eq : m.rows = rows.length
  length_row : ∀ row ∈ rows, row.length = m.cols
  cols_eq : rows = [] → m.cols = 0
  entry : ∀ r c row x, rows[r]? = some row → row[c]? = some x → m.get? r c = some x

theorem hasRows_of_ofRows {rows : List (List Float)} {m : Matrix} (h : ofRows rows = .ok m) :
    m.HasRows rows := by
  unfold ofRows at h
  simp only at h
  split at h
  case h_1 => cases h
  case h_2 hnone =>
    have hall := raggedRow?_eq_none_iff.mp hnone
    cases h
    refine ⟨rfl, hall, ?_, ?_⟩
    · rintro rfl
      rfl
    · intro r c row x hr hc
      have hlt : c < row.length := (List.getElem?_eq_some_iff.mp hc).1
      rw [hall row (List.mem_of_getElem? hr)] at hlt
      rw [get?_of_lt (List.getElem?_eq_some_iff.mp hr).1 hlt]
      exact (getElem?_flatten hall hr hlt).trans hc

/-- **A matrix is made of the rows that it has**, and of no other ones. -/
theorem ofRows_eq_ok_iff {rows : List (List Float)} {m : Matrix} :
    ofRows rows = .ok m ↔ m.HasRows rows := by
  refine ⟨hasRows_of_ofRows, fun h => ?_⟩
  have hcols : (rows.head?.map List.length).getD 0 = m.cols := by
    cases rows with
    | nil => exact (h.cols_eq rfl).symm
    | cons row rows => exact h.length_row row List.mem_cons_self
  obtain ⟨n, hn⟩ : ∃ n, ofRows rows = .ok n := by
    unfold ofRows
    simp only
    split
    case h_1 hragged =>
      rw [hcols, raggedRow?_eq_none h.length_row] at hragged
      cases hragged
    case h_2 => exact ⟨_, rfl⟩
  have hrows := hasRows_of_ofRows hn
  have hcols' : n.cols = m.cols := by
    cases rows with
    | nil => rw [hrows.cols_eq rfl, h.cols_eq rfl]
    | cons row rows =>
      rw [← hrows.length_row row List.mem_cons_self, h.length_row row List.mem_cons_self]
  rw [hn]
  refine congrArg Except.ok (ext_get? (hrows.rows_eq.trans h.rows_eq.symm) hcols' ?_)
  intro r hr c hc
  have hr' : r < rows.length := hrows.rows_eq ▸ hr
  have hc' : c < rows[r].length := by
    rw [hrows.length_row _ (List.getElem_mem hr')]
    exact hc
  have hrow := List.getElem?_eq_getElem hr'
  have hx := List.getElem?_eq_getElem hc'
  rw [hrows.entry r c _ _ hrow hx, h.entry r c _ _ hrow hx]

end Runbook.Matrix
