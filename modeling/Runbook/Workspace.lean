import Runbook.Catalog

/-!
# Workspaces

One slot per variable of the catalog: a value and whether it has been set. A slot becomes occupied
when it is written or marked and stays so.

* `isOccupied_write`, `isOccupied_put`, `isOccupied_mark`: what each change does to the marks.
* `value_write_self`, `value_write_of_ne`, `value_put_self`, `value_put_of_ne`, `value_mark`: what
  each change does to the values; `value_write` and `value_put` for all variables at once.
-/

namespace Runbook

/-- The value of a variable, and whether it has been set. -/
structure Slot where
  value : Value
  occupied : Bool

/-- The slots of all variables, in catalog order. -/
structure Workspace where
  slots : List Slot

namespace Workspace

/-- Every variable holds the default of its group, and none is set. -/
def fresh (c : Catalog) : Workspace :=
  ⟨c.vars.map fun v => ⟨v.group.default?.getD default, false⟩⟩

/-- The number of slots. -/
def size (w : Workspace) : Nat :=
  w.slots.length

/-- Whether `v` has been set. -/
def isOccupied (w : Workspace) (v : VariableId) : Bool :=
  w.slots[v.index]?.any Slot.occupied

/-- What `v` holds, set or not. -/
def value (w : Workspace) (v : VariableId) : Value :=
  (w.slots[v.index]?.map Slot.value).getD default

/-- Sets `v` to `x`. -/
def write (w : Workspace) (v : VariableId) (x : Value) : Workspace :=
  ⟨w.slots.modify v.index fun _ => ⟨x, true⟩⟩

/-- Changes what `v` holds and leaves its mark alone. -/
def put (w : Workspace) (v : VariableId) (x : Value) : Workspace :=
  ⟨w.slots.modify v.index fun s => ⟨x, s.occupied⟩⟩

/-- Marks `v` as set. -/
def mark (w : Workspace) (v : VariableId) : Workspace :=
  ⟨w.slots.modify v.index fun s => ⟨s.value, true⟩⟩

/-- Marks each of `vs`. -/
def markAll (w : Workspace) (vs : List VariableId) : Workspace :=
  vs.foldl mark w

/-- The variables that have been set, in catalog order. -/
def occupied (w : Workspace) : List VariableId :=
  ((List.range w.size).map VariableId.mk).filter w.isOccupied

/-- Copies those of `vs` that are set in `other`. -/
def mergeFrom (w other : Workspace) (vs : List VariableId) : Workspace :=
  vs.foldl (fun w v => if other.isOccupied v then w.write v (other.value v) else w) w

/-! ## What each change does -/

@[simp] theorem size_write (w : Workspace) (v : VariableId) (x : Value) :
    (w.write v x).size = w.size := by
  simp [write, size]

@[simp] theorem size_put (w : Workspace) (v : VariableId) (x : Value) :
    (w.put v x).size = w.size := by
  simp [put, size]

@[simp] theorem size_mark (w : Workspace) (v : VariableId) : (w.mark v).size = w.size := by
  simp [mark, size]

@[simp] theorem isOccupied_write (w : Workspace) (u v : VariableId) (x : Value) :
    (w.write v x).isOccupied u = (w.isOccupied u || (u == v && u.index < w.size)) := by
  obtain ⟨u⟩ := u; obtain ⟨v⟩ := v
  by_cases h : v = u
  · subst h
    by_cases hs : v < w.slots.length <;> simp [write, isOccupied, size, hs]
  · simp [write, isOccupied, h, Ne.symm h]

@[simp] theorem isOccupied_put (w : Workspace) (u v : VariableId) (x : Value) :
    (w.put v x).isOccupied u = w.isOccupied u := by
  obtain ⟨u⟩ := u; obtain ⟨v⟩ := v
  by_cases h : v = u
  · subst h
    cases hs : w.slots[v]? <;> simp_all [put, isOccupied]
  · simp [put, isOccupied, h]

@[simp] theorem isOccupied_mark (w : Workspace) (u v : VariableId) :
    (w.mark v).isOccupied u = (w.isOccupied u || (u == v && u.index < w.size)) := by
  obtain ⟨u⟩ := u; obtain ⟨v⟩ := v
  by_cases h : v = u
  · subst h
    by_cases hs : v < w.slots.length <;> simp [mark, isOccupied, size, hs]
  · simp [mark, isOccupied, h, Ne.symm h]

@[simp] theorem value_mark (w : Workspace) (u v : VariableId) :
    (w.mark v).value u = w.value u := by
  obtain ⟨u⟩ := u; obtain ⟨v⟩ := v
  by_cases h : v = u
  · subst h
    cases hs : w.slots[v]? <;> simp_all [mark, value]
  · simp [mark, value, h]

theorem value_write_self {w : Workspace} {v : VariableId} (h : v.index < w.size) (x : Value) :
    (w.write v x).value v = x := by
  have h' : v.index < w.slots.length := h
  simp [write, value, h']

theorem value_write_of_ne {u v : VariableId} (h : u ≠ v) (w : Workspace) (x : Value) :
    (w.write v x).value u = w.value u := by
  obtain ⟨u⟩ := u; obtain ⟨v⟩ := v
  have h' : v ≠ u := fun e => h (by rw [e])
  simp [write, value, h']

theorem value_put_self {w : Workspace} {v : VariableId} (h : v.index < w.size) (x : Value) :
    (w.put v x).value v = x := by
  have h' : v.index < w.slots.length := h
  simp [put, value, h']

theorem value_put_of_ne {u v : VariableId} (h : u ≠ v) (w : Workspace) (x : Value) :
    (w.put v x).value u = w.value u := by
  obtain ⟨u⟩ := u; obtain ⟨v⟩ := v
  have h' : v ≠ u := fun e => h (by rw [e])
  simp [put, value, h']

/-- Outside of the slots there is nothing but a default. -/
theorem value_of_le {w : Workspace} {v : VariableId} (h : w.size ≤ v.index) :
    w.value v = default := by
  rw [value, List.getElem?_eq_none h]
  rfl

theorem value_write (w : Workspace) (u v : VariableId) (x : Value) :
    (w.write v x).value u = if u = v ∧ u.index < w.size then x else w.value u := by
  by_cases huv : u = v
  · subst huv
    rcases Nat.lt_or_ge u.index w.size with hu | hu
    · rw [value_write_self hu, if_pos ⟨rfl, hu⟩]
    · rw [value_of_le (by rwa [size_write]), value_of_le hu, if_neg fun h => Nat.not_lt.mpr hu h.2]
  · rw [value_write_of_ne huv, if_neg fun h => huv h.1]

theorem value_put (w : Workspace) (u v : VariableId) (x : Value) :
    (w.put v x).value u = if u = v ∧ u.index < w.size then x else w.value u := by
  by_cases huv : u = v
  · subst huv
    rcases Nat.lt_or_ge u.index w.size with hu | hu
    · rw [value_put_self hu, if_pos ⟨rfl, hu⟩]
    · rw [value_of_le (by rwa [size_put]), value_of_le hu, if_neg fun h => Nat.not_lt.mpr hu h.2]
  · rw [value_put_of_ne huv, if_neg fun h => huv h.1]

theorem value_markAll (w : Workspace) (vs : List VariableId) (u : VariableId) :
    (w.markAll vs).value u = w.value u := by
  unfold markAll
  induction vs generalizing w with
  | nil => rfl
  | cons v vs ih => exact (ih _).trans (value_mark w u v)

theorem value_mergeFrom_or (w other : Workspace) (vs : List VariableId) (u : VariableId) :
    (w.mergeFrom other vs).value u = other.value u ∨
      (w.mergeFrom other vs).value u = w.value u := by
  unfold mergeFrom
  induction vs generalizing w with
  | nil => exact .inr rfl
  | cons v vs ih =>
    rcases ih (if other.isOccupied v then w.write v (other.value v) else w) with h | h
    · exact .inl h
    · rw [List.foldl_cons, h]
      split
      · rw [value_write]
        split
        case isTrue huv => exact .inl (by rw [huv.1])
        case isFalse => exact .inr rfl
      · exact .inr rfl

end Workspace
end Runbook
