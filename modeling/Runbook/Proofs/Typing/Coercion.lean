import Runbook.Proofs.Matrix.Rows

/-!
# Literals and groups

What a literal stands for in a slot of each concrete group, said group by group and without the
reader's conversions; and where any group will do, the literal is taken for the most specific group
that it can stand for.

* `Literal.Counts`: the number that a literal stands for, wherever it stands for one.
* `Literal.StandsFor`: the value of a concrete group that a literal stands for.
* `coerce?_iff`: conversion to a concrete group finds that value.
* `Group.WidensTo`: where a literal of one group may stand for a value of another.
* `Literal.Principal`: what is inferred for a slot that takes any group.
* `coercion_principal`: it is inferred for every literal.
-/

namespace Runbook

/-! ## What literals stand for -/

namespace Literal

/-- The literal stands for the number `x`: it is that number, or an integer and `x` is the double
nearest to it. -/
inductive Counts : Literal → Float → Prop where
  | integer (i : Int64) : Counts (.integer i) (Double.ofInt i.toInt)
  | number (x : Float) : Counts (.number x) x

theorem Counts.eq {l : Literal} {x y : Float} (hx : l.Counts x) (hy : l.Counts y) : x = y := by
  cases hx with
  | integer i => cases hy; rfl
  | number x => cases hy; rfl

/-- The lists give the rows of the matrix, all of one length: item `c` of list `r` stands for entry
`(r, c)`. Without lists there are no columns. -/
structure Lists (rows : List (List Literal)) (m : Matrix) : Prop where
  rows_eq : m.rows = rows.length
  length_row : ∀ row ∈ rows, row.length = m.cols
  cols_eq : rows = [] → m.cols = 0
  entry : ∀ r c row item, rows[r]? = some row → row[c]? = some item →
    ∃ x, item.Counts x ∧ m.get? r c = some x

/-- The literal stands for the value in a slot of a concrete group. -/
def StandsFor (l : Literal) : Group → Value → Prop
  | .index, v => ∃ i, l = .integer i ∧ v = .index i
  | .numeric, v => ∃ x, l.Counts x ∧ v = .numeric x
  | .string, v => ∃ s, l = .string s ∧ v = .string s
  | .vector, v => ∃ items xs, l = .list items ∧ List.Forall₂ Counts items xs ∧ v = .vector xs
  | .indexArray, v => ∃ is : List Int64, l = .list (is.map .integer) ∧ v = .indexArray is
  | .stringArray, v => ∃ ss : List String, l = .list (ss.map .string) ∧ v = .stringArray ss
  | .matrix, v => ∃ rows m, l = .list (rows.map .list) ∧ Lists rows m ∧ v = .matrix m
  | .pipeline, _ | .any, _ => False

/-! ## Items -/

theorem mapM_eq_some_iff {α β : Type} {f : α → Option β} {xs : List α} {ys : List β} :
    xs.mapM f = some ys ↔ List.Forall₂ (fun x y => f x = some y) xs ys := by
  induction xs generalizing ys with
  | nil =>
    rw [List.forall₂_nil_left_iff, List.mapM_nil]
    exact ⟨fun h => (Option.some.inj h).symm, fun h => h ▸ rfl⟩
  | cons x xs ih =>
    rw [List.mapM_cons, List.forall₂_cons_left_iff, Option.bind_eq_bind, Option.bind_eq_some_iff]
    constructor
    · rintro ⟨y, hy, h⟩
      obtain ⟨rest, hrest, h⟩ := Option.bind_eq_some_iff.mp h
      cases h
      exact ⟨y, rest, hy, ih.mp hrest, rfl⟩
    · rintro ⟨y, rest, hy, hrest, rfl⟩
      exact ⟨y, hy, Option.bind_eq_some_iff.mpr ⟨rest, ih.mpr hrest, rfl⟩⟩

/-- Where only the image of `g` can be read, the items are an image. -/
theorem mapM_eq_some_iff_eq_map {α β : Type} {f : α → Option β} {g : β → α}
    (h : ∀ x y, f x = some y ↔ x = g y) {xs : List α} {ys : List β} :
    xs.mapM f = some ys ↔ xs = ys.map g := by
  simp only [mapM_eq_some_iff, h]
  rw [← List.forall₂_map_right_iff (R := Eq), List.forall₂_eq_eq_eq]

theorem toFloat?_eq_some_iff {l : Literal} {x : Float} : l.toFloat? = some x ↔ l.Counts x := by
  constructor
  · intro h
    cases l with
    | integer i => cases h; exact .integer i
    | number y => cases h; exact .number x
    | string | list => cases h
  · rintro (_ | _)
    · rfl
    · rfl

theorem toInteger?_eq_some_iff (l : Literal) (i : Int64) :
    l.toInteger? = some i ↔ l = .integer i := by
  cases l <;> simp [toInteger?]

theorem toText?_eq_some_iff (l : Literal) (s : String) : l.toText? = some s ↔ l = .string s := by
  cases l <;> simp [toText?]

theorem toNumbers?_eq_some_iff {l : Literal} {xs : List Float} :
    l.toNumbers? = some xs ↔ ∃ items, l = .list items ∧ List.Forall₂ Counts items xs := by
  cases l with
  | list items => simp [toNumbers?, mapM_eq_some_iff, toFloat?_eq_some_iff]
  | integer | number | string => simp [toNumbers?]

/-! ## Rows -/

theorem exists_forall₂_iff {α β : Type} {R : α → β → Prop} {xs : List α} :
    (∃ ys, List.Forall₂ R xs ys) ↔ ∀ x ∈ xs, ∃ y, R x y := by
  constructor
  · rintro ⟨ys, h⟩ x hx
    obtain ⟨i, hi⟩ := List.mem_iff_getElem?.mp hx
    obtain ⟨y, -, hy⟩ := getElem?_of_forall₂ h hi
    exact ⟨y, hy⟩
  · intro h
    induction xs with
    | nil => exact ⟨[], .nil⟩
    | cons x xs ih =>
      obtain ⟨⟨y, hy⟩, hxs⟩ := List.forall_mem_cons.mp h
      obtain ⟨ys, hys⟩ := ih hxs
      exact ⟨y :: ys, .cons hy hys⟩

theorem toNumbers?_rows_iff {ls : List Literal} {xss : List (List Float)} :
    ls.mapM toNumbers? = some xss ↔
      ∃ rows, ls = rows.map .list ∧ List.Forall₂ (List.Forall₂ Counts) rows xss := by
  rw [mapM_eq_some_iff]
  constructor
  · intro h
    induction h with
    | nil => exact ⟨[], rfl, .nil⟩
    | cons hrow _ ih =>
      obtain ⟨items, rfl, hitems⟩ := toNumbers?_eq_some_iff.mp hrow
      obtain ⟨rows, rfl, hrows⟩ := ih
      exact ⟨items :: rows, rfl, .cons hitems hrows⟩
  · rintro ⟨rows, rfl, h⟩
    induction h with
    | nil => exact .nil
    | cons hrow _ ih => exact .cons (toNumbers?_eq_some_iff.mpr ⟨_, rfl, hrow⟩) ih

/-- Rows of literals that stand for the rows of a matrix do so entry by entry. -/
theorem exists_hasRows_iff {rows : List (List Literal)} {m : Matrix} :
    (∃ xss, List.Forall₂ (List.Forall₂ Counts) rows xss ∧ m.HasRows xss) ↔ Lists rows m := by
  constructor
  · rintro ⟨xss, hxss, hm⟩
    refine ⟨hm.rows_eq.trans hxss.length_eq.symm, ?_, ?_, ?_⟩
    · intro row hrow
      obtain ⟨r, hr⟩ := List.mem_iff_getElem?.mp hrow
      obtain ⟨xs, hxs, hcounts⟩ := getElem?_of_forall₂ hxss hr
      exact hcounts.length_eq.trans (hm.length_row xs (List.mem_of_getElem? hxs))
    · rintro rfl
      cases hxss
      exact hm.cols_eq rfl
    · intro r c row item hr hc
      obtain ⟨xs, hxs, hrow⟩ := getElem?_of_forall₂ hxss hr
      obtain ⟨x, hx, hcounts⟩ := getElem?_of_forall₂ hrow hc
      exact ⟨x, hcounts, hm.entry r c xs x hxs hx⟩
  · intro h
    -- every item stands for a number, and that is the entry in its place
    obtain ⟨xss, hxss⟩ := exists_forall₂_iff.mpr fun row hrow => exists_forall₂_iff.mpr
      fun item hitem => by
        obtain ⟨r, hr⟩ := List.mem_iff_getElem?.mp hrow
        obtain ⟨c, hc⟩ := List.mem_iff_getElem?.mp hitem
        obtain ⟨x, hx, -⟩ := h.entry r c row item hr hc
        exact ⟨x, hx⟩
    refine ⟨xss, hxss, h.rows_eq.trans hxss.length_eq, ?_, ?_, ?_⟩
    · intro xs hxs
      obtain ⟨r, hr⟩ := List.mem_iff_getElem?.mp hxs
      obtain ⟨row, hrow, hcounts⟩ := getElem?_of_forall₂ hxss.flip hr
      exact hcounts.length_eq.symm.trans (h.length_row row (List.mem_of_getElem? hrow))
    · rintro rfl
      exact h.cols_eq (List.forall₂_nil_right_iff.mp hxss)
    · intro r c xs x hr hc
      obtain ⟨row, hrow, hcounts⟩ := getElem?_of_forall₂ hxss.flip hr
      obtain ⟨item, hitem, hx⟩ := getElem?_of_forall₂ hcounts.flip hc
      obtain ⟨y, hy, hentry⟩ := h.entry r c row item hrow hitem
      rwa [hx.eq hy]

theorem matrixOfRows?_eq_some_iff {ls : List Literal} {m : Matrix} :
    matrixOfRows? ls = some m ↔ ∃ rows, ls = rows.map .list ∧ Lists rows m := by
  simp only [← exists_hasRows_iff]
  constructor
  · intro h
    obtain ⟨xss, hrows, hof⟩ := exists_rows_of_matrixOfRows? h
    obtain ⟨rows, hls, hxss⟩ := toNumbers?_rows_iff.mp hrows
    exact ⟨rows, hls, xss, hxss, Matrix.ofRows_eq_ok_iff.mp hof⟩
  · rintro ⟨rows, hls, xss, hxss, hm⟩
    rw [matrixOfRows?, toNumbers?_rows_iff.mpr ⟨rows, hls, hxss⟩]
    simp only [Matrix.ofRows_eq_ok_iff.mpr hm]
    rfl

/-! ## Conversion -/

/-- **Conversion to a concrete group finds the value that the literal stands for.** -/
theorem coerce?_iff {g : Group} (hg : g ≠ .any) {l : Literal} {v : Value} :
    l.coerce? g = some v ↔ l.StandsFor g v := by
  rw [coerce?, if_neg hg]
  cases g with
  | index => cases l <;> simp [coerceTo?, StandsFor, eq_comm]
  | numeric =>
    simp only [coerceTo?, StandsFor, Option.map_eq_some_iff, toFloat?_eq_some_iff]
    exact exists_congr fun x => and_congr_right fun _ => eq_comm
  | string => cases l <;> simp [coerceTo?, StandsFor, eq_comm]
  | vector =>
    simp only [coerceTo?, StandsFor, Option.map_eq_some_iff, toNumbers?_eq_some_iff]
    constructor
    · rintro ⟨xs, ⟨items, rfl, hitems⟩, rfl⟩
      exact ⟨items, xs, rfl, hitems, rfl⟩
    · rintro ⟨items, xs, rfl, hitems, rfl⟩
      exact ⟨xs, ⟨items, rfl, hitems⟩, rfl⟩
  | indexArray =>
    cases l with
    | list items =>
      simp [coerceTo?, StandsFor, mapM_eq_some_iff_eq_map toInteger?_eq_some_iff, eq_comm]
    | integer | number | string => simp [coerceTo?, StandsFor]
  | stringArray =>
    cases l with
    | list items =>
      simp [coerceTo?, StandsFor, mapM_eq_some_iff_eq_map toText?_eq_some_iff, eq_comm]
    | integer | number | string => simp [coerceTo?, StandsFor]
  | matrix =>
    cases l with
    | list rows =>
      simp only [coerceTo?, StandsFor, Option.map_eq_some_iff, matrixOfRows?_eq_some_iff,
        Literal.list.injEq]
      constructor
      · rintro ⟨m, ⟨rows, rfl, hm⟩, rfl⟩
        exact ⟨rows, m, rfl, hm, rfl⟩
      · rintro ⟨rows, m, rfl, hm, rfl⟩
        exact ⟨m, ⟨rows, rfl, hm⟩, rfl⟩
    | integer | number | string => simp [coerceTo?, StandsFor]
  | pipeline => cases l <;> simp [coerceTo?, StandsFor]
  | any => exact absurd rfl hg

end Literal

/-! ## Which groups -/

/-- A literal of the first group may stand for a value of the second one as well. -/
inductive Group.WidensTo : Group → Group → Prop where
  | numeric : WidensTo .index .numeric
  | vector : WidensTo .indexArray .vector

/-- The group is one that lists are written for. -/
inductive Group.IsListed : Group → Prop where
  | vector : IsListed .vector
  | indexArray : IsListed .indexArray
  | stringArray : IsListed .stringArray
  | matrix : IsListed .matrix

namespace Literal

variable {first : Literal} {rest : List Literal} {v : Value}

/-- The literal stands for some value in a slot of the group. -/
def Fills (l : Literal) (g : Group) : Prop :=
  ∃ v, l.StandsFor g v

theorem fills_list_nil_iff {g : Group} : Fills (.list []) g ↔ g.IsListed := by
  constructor
  · rintro ⟨v, hv⟩
    cases g with
    | vector => exact .vector
    | indexArray => exact .indexArray
    | stringArray => exact .stringArray
    | matrix => exact .matrix
    | index | string => obtain ⟨_, ⟨⟩, -⟩ := hv
    | numeric => obtain ⟨_, ⟨⟩, -⟩ := hv
    | pipeline | any => exact hv.elim
  · rintro (_ | _ | _ | _)
    · exact ⟨_, [], [], rfl, .nil, rfl⟩
    · exact ⟨_, [], rfl, rfl⟩
    · exact ⟨_, [], rfl, rfl⟩
    · exact ⟨_, [], .empty, rfl, ⟨rfl, nofun, fun _ => rfl, nofun⟩, rfl⟩

/-- A list is a vector if each of its items is a number. -/
theorem fills_vector_iff {items : List Literal} :
    Fills (.list items) .vector ↔ ∀ l ∈ items, ∃ x, l.Counts x := by
  rw [← exists_forall₂_iff]
  constructor
  · rintro ⟨v, _, xs, ⟨⟩, hxs, -⟩
    exact ⟨xs, hxs⟩
  · rintro ⟨xs, hxs⟩
    exact ⟨_, items, xs, rfl, hxs, rfl⟩

/-- It is an array of indices if each is an integer. -/
theorem fills_indexArray_iff {items : List Literal} :
    Fills (.list items) .indexArray ↔ (items.all fun l => l.toInteger?.isSome) = true := by
  rw [List.all_eq_true]
  constructor
  · rintro ⟨v, is, heq, -⟩ l hl
    cases heq
    obtain ⟨i, -, rfl⟩ := List.mem_map.mp hl
    rfl
  · intro h
    obtain ⟨is, his⟩ := exists_forall₂_iff.mpr fun l hl => Option.isSome_iff_exists.mp (h l hl)
    exact ⟨_, is, congrArg Literal.list
      ((mapM_eq_some_iff_eq_map toInteger?_eq_some_iff).mp (mapM_eq_some_iff.mpr his)), rfl⟩

/-- What the first item of a list leaves open. -/
theorem first_of_fills {g : Group} (h : Fills (.list (first :: rest)) g) :
    (g = .vector ∧ ∃ x, first.Counts x) ∨ (g = .indexArray ∧ ∃ i, first = .integer i) ∨
      (g = .stringArray ∧ ∃ s, first = .string s) ∨
      (g = .matrix ∧ ∃ items, first = .list items) := by
  obtain ⟨v, hv⟩ := h
  cases g with
  | vector =>
    obtain ⟨_, xs, ⟨⟩, hxs, -⟩ := hv
    cases hxs with
    | cons hx _ => exact .inl ⟨rfl, _, hx⟩
  | indexArray =>
    obtain ⟨is, heq, -⟩ := hv
    cases is with
    | nil => cases heq
    | cons i is => cases heq; exact .inr (.inl ⟨rfl, i, rfl⟩)
  | stringArray =>
    obtain ⟨ss, heq, -⟩ := hv
    cases ss with
    | nil => cases heq
    | cons s ss => cases heq; exact .inr (.inr (.inl ⟨rfl, s, rfl⟩))
  | matrix =>
    obtain ⟨rows, m, heq, -⟩ := hv
    cases rows with
    | nil => cases heq
    | cons row rows => cases heq; exact .inr (.inr (.inr ⟨rfl, row, rfl⟩))
  | index | string => obtain ⟨_, ⟨⟩, -⟩ := hv
  | numeric => obtain ⟨_, ⟨⟩, -⟩ := hv
  | pipeline | any => exact hv.elim

/-- A list of integers is a list of numbers. -/
theorem fills_vector_of_indexArray {items : List Literal} (h : Fills (.list items) .indexArray) :
    Fills (.list items) .vector := by
  obtain ⟨v, is, heq, -⟩ := h
  cases heq
  refine fills_vector_iff.mpr fun l hl => ?_
  obtain ⟨i, -, rfl⟩ := List.mem_map.mp hl
  exact ⟨_, .integer i⟩

/-- A list of numbers is one of integers, or it is a vector and nothing else. -/
theorem fills_numbers_iff (hfirst : ∃ x, first.Counts x) {g : Group} :
    Fills (.list (first :: rest)) g ↔
      Fills (.list (first :: rest)) (naturalGroup (.list (first :: rest))) ∧
        (g = naturalGroup (.list (first :: rest)) ∨
          (naturalGroup (.list (first :: rest))).WidensTo g) := by
  have hnatural : naturalGroup (.list (first :: rest)) =
      if (first :: rest).all (fun l => l.toInteger?.isSome) then .indexArray else .vector := by
    obtain ⟨x, _ | _⟩ := hfirst
    · rfl
    · rfl
  have hgroup : Fills (.list (first :: rest)) g → g = .vector ∨ g = .indexArray := by
    intro h
    rcases first_of_fills h with ⟨rfl, -⟩ | ⟨rfl, -⟩ | ⟨-, s, rfl⟩ | ⟨-, items, rfl⟩
    · exact .inl rfl
    · exact .inr rfl
    · obtain ⟨x, ⟨⟩⟩ := hfirst
    · obtain ⟨x, ⟨⟩⟩ := hfirst
  rw [hnatural]
  by_cases hall : (first :: rest).all (fun l => l.toInteger?.isSome) = true
  · have hindices := fills_indexArray_iff.mpr hall
    rw [if_pos hall]
    constructor
    · intro h
      rcases hgroup h with rfl | rfl
      · exact ⟨hindices, .inr .vector⟩
      · exact ⟨hindices, .inl rfl⟩
    · rintro ⟨-, rfl | hwide⟩
      · exact hindices
      · cases hwide
        exact fills_vector_of_indexArray hindices
  · rw [if_neg hall]
    constructor
    · intro h
      rcases hgroup h with rfl | rfl
      · exact ⟨h, .inl rfl⟩
      · exact absurd (fills_indexArray_iff.mp h) hall
    · rintro ⟨h, rfl | hwide⟩
      · exact h
      · cases hwide

/-- An integer stands for an index and for a number. -/
theorem fills_integer_iff {i : Int64} {g : Group} :
    Fills (.integer i) g ↔ g = .index ∨ Group.WidensTo .index g := by
  constructor
  · rintro ⟨v, hv⟩
    cases g with
    | index => exact .inl rfl
    | numeric => exact .inr .numeric
    | string | indexArray | stringArray => obtain ⟨_, ⟨⟩, -⟩ := hv
    | vector | matrix => obtain ⟨_, _, ⟨⟩, -⟩ := hv
    | pipeline | any => exact hv.elim
  · rintro (rfl | ⟨⟨⟩⟩)
    · exact ⟨_, i, rfl, rfl⟩
    · exact ⟨_, _, .integer i, rfl⟩

theorem fills_number_iff {x : Float} {g : Group} : Fills (.number x) g ↔ g = .numeric := by
  constructor
  · rintro ⟨v, hv⟩
    cases g with
    | numeric => rfl
    | index | string | indexArray | stringArray => obtain ⟨_, ⟨⟩, -⟩ := hv
    | vector | matrix => obtain ⟨_, _, ⟨⟩, -⟩ := hv
    | pipeline | any => exact hv.elim
  · rintro rfl
    exact ⟨_, x, .number x, rfl⟩

theorem fills_string_iff {s : String} {g : Group} : Fills (.string s) g ↔ g = .string := by
  constructor
  · rintro ⟨v, hv⟩
    cases g with
    | string => rfl
    | index | numeric | indexArray | stringArray => obtain ⟨_, ⟨⟩, -⟩ := hv
    | vector | matrix => obtain ⟨_, _, ⟨⟩, -⟩ := hv
    | pipeline | any => exact hv.elim
  · rintro rfl
    exact ⟨_, s, rfl, rfl⟩

/-- A list that begins with a string is one of strings or nothing. -/
theorem eq_stringArray_of_fills {s : String} {g : Group}
    (h : Fills (.list (.string s :: rest)) g) : g = .stringArray := by
  rcases first_of_fills h with ⟨-, x, ⟨⟩⟩ | ⟨-, i, ⟨⟩⟩ | ⟨rfl, -⟩ | ⟨-, items, ⟨⟩⟩
  rfl

/-- A list that begins with a list is a matrix or nothing. -/
theorem eq_matrix_of_fills {items : List Literal} {g : Group}
    (h : Fills (.list (.list items :: rest)) g) : g = .matrix := by
  rcases first_of_fills h with ⟨-, x, ⟨⟩⟩ | ⟨-, i, ⟨⟩⟩ | ⟨-, s, ⟨⟩⟩ | ⟨rfl, -⟩
  rfl

/-- **The natural group is the most specific one.** If a literal stands for a value of any group, it
does so of its natural group, and of the one that this widens to, but of no other; except for the
empty list, which is in every group that lists are written for and by itself a vector. -/
theorem fills_iff {l : Literal} {g : Group} :
    l.Fills g ↔ l.Fills l.naturalGroup ∧
      (g = l.naturalGroup ∨ l.naturalGroup.WidensTo g ∨ (l = .list [] ∧ g.IsListed)) := by
  cases l with
  | integer i =>
    simp [naturalGroup, fills_integer_iff]
  | number x =>
    simp only [naturalGroup, fills_number_iff, true_and]
    exact ⟨.inl, by rintro (h | ⟨⟨⟩⟩ | ⟨⟨⟩, -⟩); exact h⟩
  | string s =>
    simp only [naturalGroup, fills_string_iff, true_and]
    exact ⟨.inl, by rintro (h | ⟨⟨⟩⟩ | ⟨⟨⟩, -⟩); exact h⟩
  | list items =>
    rcases items with _ | ⟨first, rest⟩
    · simp only [naturalGroup, fills_list_nil_iff, true_and]
      constructor
      · intro h
        exact ⟨.vector, .inr (.inr h)⟩
      · rintro ⟨-, rfl | ⟨⟨⟩⟩ | h⟩
        · exact .vector
        · exact h
    · cases first with
      | list items =>
        constructor
        · intro h
          obtain rfl := eq_matrix_of_fills h
          exact ⟨h, .inl rfl⟩
        · rintro ⟨h, rfl | ⟨⟨⟩⟩ | ⟨⟨⟩, -⟩⟩
          exact h
      | string s =>
        constructor
        · intro h
          obtain rfl := eq_stringArray_of_fills h
          exact ⟨h, .inl rfl⟩
        · rintro ⟨h, rfl | ⟨⟨⟩⟩ | ⟨⟨⟩, -⟩⟩
          exact h
      | integer i =>
        rw [fills_numbers_iff ⟨_, .integer i⟩]
        simp
      | number x =>
        rw [fills_numbers_iff ⟨_, .number x⟩]
        simp

/-! ## Any group -/

theorem naturalGroup_ne_any (l : Literal) : l.naturalGroup ≠ .any := by
  unfold naturalGroup
  split
  case h_7 => split <;> exact nofun
  all_goals exact nofun

/-- What becomes of a literal in each slot. -/
structure Principal (l : Literal) : Prop where
  /-- Where any group will do, the literal is accepted if some concrete group accepts it. -/
  any_iff : (∃ v, l.coerce? .any = some v) ↔ ∃ g ≠ .any, ∃ v, l.coerce? g = some v
  /-- It is then taken for a value of its natural group, which is concrete. -/
  any_eq : l.coerce? .any = l.coerce? l.naturalGroup
  natural_ne_any : l.naturalGroup ≠ .any
  /-- No other group accepts it, but the one that its natural group widens to; the empty list is
  accepted by every group that lists are written for. -/
  accepted_iff : ∀ g ≠ .any, (∃ v, l.coerce? g = some v) ↔ (∃ v, l.coerce? .any = some v) ∧
    (g = l.naturalGroup ∨ l.naturalGroup.WidensTo g ∨ (l = .list [] ∧ g.IsListed))
  natural_empty : l = .list [] → l.naturalGroup = .vector
  /-- A concrete group makes of it what it stands for there. -/
  concrete : ∀ g ≠ .any, ∀ v, l.coerce? g = some v ↔ l.StandsFor g v
  /-- Every declared group accepts what it makes of it. -/
  accepts : ∀ g v, l.coerce? g = some v → g.accepts v.group = true

theorem coerce?_any (l : Literal) : l.coerce? .any = l.coerce? l.naturalGroup := by
  rw [coerce?, if_pos rfl, coerce?, if_neg l.naturalGroup_ne_any]

theorem fills_iff_coerce? {l : Literal} {g : Group} (hg : g ≠ .any) :
    l.Fills g ↔ ∃ v, l.coerce? g = some v :=
  exists_congr fun _ => (coerce?_iff hg).symm

/-- **A slot that takes any group takes what some concrete group takes**, and for the most specific
of these groups: integers are indices rather than numbers, lists of integers arrays of indices
rather than vectors, and the empty list is a vector. Every group accepts what it makes of a literal:
a number is the same double wherever it stands for one, by itself, in a vector or in a matrix, and
an integer is the double nearest to it; a list of lists is a matrix only if they are equally long
and hold numbers only, and entry `(r, c)` is number `c` of list `r`. -/
theorem coercion_principal (l : Literal) : l.Principal := by
  have hne := l.naturalGroup_ne_any
  have hany : (∃ v, l.coerce? .any = some v) ↔ l.Fills l.naturalGroup := by
    rw [coerce?_any, fills_iff_coerce? hne]
  have haccepted : ∀ g ≠ .any, (∃ v, l.coerce? g = some v) ↔ (∃ v, l.coerce? .any = some v) ∧
      (g = l.naturalGroup ∨ l.naturalGroup.WidensTo g ∨ (l = .list [] ∧ g.IsListed)) := by
    intro g hg
    rw [← fills_iff_coerce? hg, hany]
    exact fills_iff
  refine ⟨?_, l.coerce?_any, hne, haccepted, ?_, fun g hg v => coerce?_iff hg,
    fun g v h => group_coerce h⟩
  · constructor
    · intro h
      exact ⟨l.naturalGroup, hne, l.coerce?_any ▸ h⟩
    · rintro ⟨g, hg, h⟩
      exact ((haccepted g hg).mp h).1
  · rintro rfl
    rfl

end Literal
end Runbook
