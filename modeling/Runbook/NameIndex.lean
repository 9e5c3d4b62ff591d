/-!
# Name indexes

A map from names to ids, kept beside a list so that a name need not be searched for there. Nothing
in the map says that it fits the list: that is for those who fill it to see to.

* `find?_insert`: a name stands for what was inserted last under it.
-/

namespace Runbook

/-- A map from names to ids, by what was inserted, the latest first. -/
structure NameIndex (ι : Type) where
  entries : List (String × ι)
  deriving Repr, DecidableEq

namespace NameIndex

variable {ι : Type}

/-- The map without names. -/
def empty : NameIndex ι := ⟨[]⟩

/-- What `name` stands for. -/
def find? (m : NameIndex ι) (name : String) : Option ι :=
  m.entries.lookup name

/-- Whether `name` stands for something. -/
def contains (m : NameIndex ι) (name : String) : Bool :=
  (m.find? name).isSome

/-- Lets `name` stand for `id`. -/
def insert (m : NameIndex ι) (name : String) (id : ι) : NameIndex ι :=
  ⟨(name, id) :: m.entries⟩

@[simp] theorem find?_empty (name : String) : (empty : NameIndex ι).find? name = none := rfl

theorem find?_insert (m : NameIndex ι) (name other : String) (id : ι) :
    (m.insert name id).find? other = if other = name then some id else m.find? other := by
  by_cases h : other = name
  · simp [find?, insert, h]
  · rw [find?, insert, List.lookup_cons, beq_eq_false_iff_ne.mpr h, if_neg h]
    rfl

theorem contains_eq_false_iff {m : NameIndex ι} {name : String} :
    m.contains name = false ↔ m.find? name = none := by
  rw [contains, Option.isSome_eq_false_iff, Option.isNone_iff_eq_none]

end NameIndex
end Runbook
