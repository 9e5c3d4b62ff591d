/-!
# Matrices

Dense matrices of doubles, stored row by row. Every matrix has exactly `rows * cols` entries, so
each position in range has an entry and each row is complete.

* `get?_eq_none_iff`: an entry is missing exactly outside the shape.
* `length_row`: a row in range has `cols` entries.
-/

namespace Runbook

/-- Rows and columns of doubles; entry `(r, c)` is number `r * cols + c` of `entries`. -/
structure Matrix where
  rows : Nat
  cols : Nat
  entries : List Float
  length_eq : entries.length = rows * cols

/-- Why a matrix cannot be built or changed. -/
inductive MatrixFault where
  /-- The number of entries does not fit the shape. -/
  | entryCount (rows cols found : Nat)
  /-- Row `row` is not as long as the first one. -/
  | rowLength (row found expected : Nat)
  | outOfRange (row col rows cols : Nat)
  deriving Repr, DecidableEq

namespace MatrixFault

/-- The fault in words. -/
def message : MatrixFault → String
  | entryCount rows cols found =>
    s!"matrix of {rows}x{cols} needs {rows * cols} elements, got {found}"
  | rowLength row found expected => s!"row {row} has {found} columns, expected {expected}"
  | outOfRange row col rows cols =>
    s!"index ({row}, {col}) out of bounds for {rows}x{cols} matrix"

end MatrixFault

namespace Matrix

/-- The matrix without rows and columns. -/
def empty : Matrix := ⟨0, 0, [], rfl⟩

instance : Inhabited Matrix := ⟨empty⟩

/-- Same shape and, entry by entry, equal numbers. -/
protected def beq (a b : Matrix) : Bool :=
  a.rows == b.rows && a.cols == b.cols && a.entries == b.entries

instance : BEq Matrix := ⟨Matrix.beq⟩

/-- All entries zero. -/
def zeros (rows cols : Nat) : Matrix :=
  ⟨rows, cols, List.replicate (rows * cols) 0, List.length_replicate⟩

/-- The matrix with the given entries, row by row. -/
def ofEntries (rows cols : Nat) (entries : List Float) : Except MatrixFault Matrix :=
  if h : entries.length = rows * cols then .ok ⟨rows, cols, entries, h⟩
  else .error (.entryCount rows cols entries.length)

/-- The first of `rows`, counted from `i`, whose length is not `cols`. -/
def raggedRow? (cols : Nat) : Nat → List (List Float) → Option (Nat × Nat)
  | _, [] => none
  | i, row :: rows =>
    if row.length = cols then raggedRow? cols (i + 1) rows else some (i, row.length)

theorem length_flatten_of_raggedRow?_eq_none {cols i : Nat} {rows : List (List Float)}
    (h : raggedRow? cols i rows = none) : rows.flatten.length = rows.length * cols := by
  induction rows generalizing i with
  | nil => simp
  | cons row rows ih =>
    rw [raggedRow?] at h
    split at h
    case isTrue hrow => simp [ih h, hrow, Nat.add_mul, Nat.add_comm]
    case isFalse => simp at h

/-- The matrix with the given rows; the first one gives the number of columns. -/
def ofRows (rows : List (List Float)) : Except MatrixFault Matrix :=
  let cols := (rows.head?.map List.length).getD 0
  match h : raggedRow? cols 0 rows with
  | some (i, found) => .error (.rowLength i found cols)
  | none => .ok ⟨rows.length, cols, rows.flatten, length_flatten_of_raggedRow?_eq_none h⟩

/-- The entry in row `r` and column `c`. -/
def get? (m : Matrix) (r c : Nat) : Option Float :=
  if r < m.rows ∧ c < m.cols then m.entries[r * m.cols + c]? else none

/-- `m` with `x` in row `r` and column `c`. -/
def set (m : Matrix) (r c : Nat) (x : Float) : Except MatrixFault Matrix :=
  if r < m.rows ∧ c < m.cols then
    .ok ⟨m.rows, m.cols, m.entries.set (r * m.cols + c) x, by rw [List.length_set, m.length_eq]⟩
  else .error (.outOfRange r c m.rows m.cols)

/-- Row `r`; empty past the last row. -/
def row (m : Matrix) (r : Nat) : List Float :=
  (m.entries.drop (r * m.cols)).take m.cols

/-- Row `r`, if there is one. -/
def row? (m : Matrix) (r : Nat) : Option (List Float) :=
  if r < m.rows then some (m.row r) else none

/-- The rows from the first to the last. -/
def toRows (m : Matrix) : List (List Float) :=
  (List.range m.rows).map m.row

theorem index_lt {m : Matrix} {r c : Nat} (hr : r < m.rows) (hc : c < m.cols) :
    r * m.cols + c < m.entries.length := by
  have : (r + 1) * m.cols ≤ m.rows * m.cols := Nat.mul_le_mul_right _ hr
  rw [m.length_eq]
  rw [Nat.add_mul, Nat.one_mul] at this
  omega

theorem get?_eq_none_iff {m : Matrix} {r c : Nat} :
    m.get? r c = none ↔ m.rows ≤ r ∨ m.cols ≤ c := by
  rw [get?]
  split
  case isTrue h =>
    rw [List.getElem?_eq_getElem (index_lt h.1 h.2)]
    simp; omega
  case isFalse h => simp; omega

theorem length_row {m : Matrix} {r : Nat} (hr : r < m.rows) : (m.row r).length = m.cols := by
  have : (r + 1) * m.cols ≤ m.rows * m.cols := Nat.mul_le_mul_right _ hr
  rw [Nat.add_mul, Nat.one_mul] at this
  rw [row, List.length_take, List.length_drop, m.length_eq]
  omega

end Matrix
end Runbook
