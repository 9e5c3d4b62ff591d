import Mathlib.Logic.Function.Basic
import Runbook.NameIndex

/-!
# Indexes and their lists

An index is kept beside a list of named items. It fits the list if a name stands for an id exactly
when the item at the position of that id bears it. Nothing but the order of steps keeps it so: a
name is inserted only if it stands for nothing yet, and for the position at which its item is added
to the list.

* `NameIndex.Inverts`: index and list are inverse to each other.
* `NameIndex.Grows`: what an index gains when items are added to the list. `grows_insert` is one
  step, `Grows.trans` puts steps together.
* `Inverts.grow`: an index that fits its list goes on to do so.
-/

namespace Runbook.NameIndex

variable {ι α : Type} {index : ι → Nat} {f : α → String} {m m' m'' : NameIndex ι} {xs ys : List α}

/-- A name stands for an id exactly if it is the name of the item at that position. -/
def Inverts (index : ι → Nat) (f : α → String) (m : NameIndex ι) (xs : List α) : Prop :=
  ∀ name id, m.find? name = some id ↔ ∃ x, xs[index id]? = some x ∧ f x = name

/-- From `m` to `m'` every name that stood for something still does, and besides those there are the
names of the items from position `start` on, each for its position. -/
def Grows (index : ι → Nat) (f : α → String) (start : Nat) (m : NameIndex ι) (xs : List α)
    (m' : NameIndex ι) : Prop :=
  ∀ name id, m'.find? name = some id ↔
    m.find? name = some id ∨ start ≤ index id ∧ ∃ x, xs[index id]? = some x ∧ f x = name

theorem inverts_empty : empty.Inverts index f [] := by
  simp [Inverts]

/-- Only the names of the items matter. -/
theorem Inverts.congr {β : Type} {g : β → String} {ys : List β} (h : m.Inverts index f xs)
    (hnames : ys.map g = xs.map f) : m.Inverts index g ys := by
  intro name id
  rw [h name id, ← Option.map_eq_some_iff, ← Option.map_eq_some_iff, ← List.getElem?_map,
    ← List.getElem?_map, hnames]

/-- Where every position has its id, a name that stands for nothing is not in the list. -/
theorem Inverts.not_mem (h : m.Inverts index f xs) (hindex : Function.Surjective index)
    {name : String} (hname : m.find? name = none) : name ∉ xs.map f := by
  intro hmem
  obtain ⟨x, hx, rfl⟩ := List.mem_map.mp hmem
  obtain ⟨i, hi⟩ := List.mem_iff_getElem?.mp hx
  obtain ⟨id, rfl⟩ := hindex i
  rw [(h (f x) id).mpr ⟨x, hi, rfl⟩] at hname
  cases hname

theorem Inverts.grow (h : m.Inverts index f xs)
    (hg : m.Grows index f xs.length (xs ++ ys) m') : m'.Inverts index f (xs ++ ys) := by
  intro name id
  rw [hg name id, h name id]
  by_cases hid : xs.length ≤ index id
  · rw [List.getElem?_eq_none hid]
    simp [hid]
  · rw [List.getElem?_append_left (Nat.lt_of_not_le hid)]
    simp [hid]

/-- What stood for something still does. -/
theorem Grows.find? {start : Nat} (hg : m.Grows index f start xs m') {name : String} {id : ι}
    (h : m.find? name = some id) : m'.find? name = some id :=
  (hg name id).mpr (.inl h)

/-- Where every position has its id, the names of the items that are added stand for something. -/
theorem Grows.contains (hg : m.Grows index f xs.length (xs ++ ys) m')
    (hindex : Function.Surjective index) {y : α} (hy : y ∈ ys) : m'.contains (f y) = true := by
  obtain ⟨i, hi⟩ := List.mem_iff_getElem?.mp hy
  obtain ⟨id, hid⟩ := hindex (xs.length + i)
  have hplace : (xs ++ ys)[index id]? = some y := by
    rw [hid, List.getElem?_append_right (Nat.le_add_right _ _), Nat.add_sub_cancel_left]
    exact hi
  have hfind := (hg (f y) id).mpr (.inr ⟨hid ▸ Nat.le_add_right _ _, y, hplace, rfl⟩)
  rw [NameIndex.contains, hfind]
  rfl

theorem grows_refl : m.Grows index f xs.length xs m := by
  intro name id
  constructor
  · exact .inl
  · rintro (h | ⟨hid, x, hx, -⟩)
    · exact h
    · rw [List.getElem?_eq_none hid] at hx
      cases hx

/-- A new name is inserted for the position at which its item is added to the list. -/
theorem grows_insert (hindex : Function.Injective index) {x : α} (hname : m.find? (f x) = none)
    {id : ι} (hid : index id = xs.length) :
    m.Grows index f xs.length (xs ++ [x]) (m.insert (f x) id) := by
  have hlast (i : ι) (hi : xs.length ≤ index i) (y : α) :
      (xs ++ [x])[index i]? = some y ↔ i = id ∧ x = y := by
    rw [List.getElem?_append_right hi, List.getElem?_singleton]
    constructor
    · intro hy
      split at hy
      case isTrue hzero => exact ⟨hindex (by omega), Option.some.inj hy⟩
      case isFalse => cases hy
    · rintro ⟨rfl, rfl⟩
      exact if_pos (by omega)
  intro other i
  rw [find?_insert]
  by_cases h : other = f x
  · subst h
    rw [if_pos rfl, hname]
    constructor
    · rintro ⟨⟩
      have hle := Nat.le_of_eq hid.symm
      exact .inr ⟨hle, x, (hlast id hle x).mpr ⟨rfl, rfl⟩, rfl⟩
    · rintro (⟨⟨⟩⟩ | ⟨hi, y, hy, -⟩)
      rw [((hlast i hi y).mp hy).1]
  · rw [if_neg h]
    refine ⟨.inl, ?_⟩
    rintro (hi | ⟨hi, y, hy, rfl⟩)
    · exact hi
    · exact absurd (congrArg f ((hlast i hi y).mp hy).2.symm) h

theorem Grows.trans {start : Nat} (hg : m.Grows index f start xs m')
    (hg' : m'.Grows index f xs.length (xs ++ ys) m'') (hstart : start ≤ xs.length) :
    m.Grows index f start (xs ++ ys) m'' := by
  intro name id
  rw [hg' name id, hg name id, or_assoc]
  refine or_congr_right ?_
  by_cases hid : xs.length ≤ index id
  · rw [List.getElem?_eq_none hid]
    simp [hid, Nat.le_trans hstart hid]
  · rw [List.getElem?_append_left (Nat.lt_of_not_le hid)]
    simp [hid]

end Runbook.NameIndex
