import Runbook.Value

/-!
# Literals

A keyword value as written, and its conversion to the group that the keyword declares. An integer
may stand for a number everywhere; an array or a matrix is written as a list.

* `group_coerce`: the group accepts every converted value.
-/

namespace Runbook

/-- A literal of a control file. -/
inductive Literal where
  | integer (i : Int64)
  | number (x : Float)
  | string (s : String)
  | list (items : List Literal)

namespace Literal

/-- The literal in messages. -/
def kindText : Literal → String
  | integer _ => "an integer"
  | number _ => "a number"
  | string _ => "a string"
  | list _ => "a list"

/-- The number that an integer or a number stands for. -/
def toFloat? : Literal → Option Float
  | integer i => some (Double.ofInt i.toInt)
  | number x => some x
  | _ => none

/-- The integer, if it is one. -/
def toInteger? : Literal → Option Int64
  | integer i => some i
  | _ => none

/-- The text, if it is one. -/
def toText? : Literal → Option String
  | string s => some s
  | _ => none

/-- The numbers in a list of numbers. -/
def toNumbers? : Literal → Option (List Float)
  | list items => items.mapM toFloat?
  | _ => none

/-- The matrix with the given rows, if all are lists of numbers and equally long. -/
def matrixOfRows? (rows : List Literal) : Option Matrix :=
  match rows.mapM toNumbers? with
  | some rows => (Matrix.ofRows rows).toOption
  | none => none

/-- The value of concrete group `g` that the literal stands for. -/
def coerceTo? : Group → Literal → Option Value
  | .index, integer i => some (.index i)
  | .numeric, l => l.toFloat?.map .numeric
  | .string, string s => some (.string s)
  | .vector, l => l.toNumbers?.map .vector
  | .indexArray, list items => (items.mapM toInteger?).map .indexArray
  | .stringArray, list items => (items.mapM toText?).map .stringArray
  | .matrix, list rows => (matrixOfRows? rows).map .matrix
  | _, _ => none

/-- The group that a literal has by itself. A list is taken for what its first item suggests; a list
of integers is an array of indices and an empty one a vector. -/
def naturalGroup : Literal → Group
  | integer _ => .index
  | number _ => .numeric
  | string _ => .string
  | list [] => .vector
  | list (list _ :: _) => .matrix
  | list (string _ :: _) => .stringArray
  | list items => if items.all fun l => l.toInteger?.isSome then .indexArray else .vector

/-- The value that the literal stands for where `g` is declared; `any` leaves the choice to the
literal. -/
def coerce? (g : Group) (l : Literal) : Option Value :=
  coerceTo? (if g = .any then l.naturalGroup else g) l

theorem group_coerceTo? {g : Group} {l : Literal} {v : Value} (h : coerceTo? g l = some v) :
    v.group = g := by
  unfold coerceTo? at h
  split at h <;> simp only [Option.map_eq_some_iff, Option.some.injEq, reduceCtorEq] at h
  all_goals obtain ⟨_, _, rfl⟩ := h; rfl

/-- The declared group accepts the value. -/
theorem group_coerce {g : Group} {l : Literal} {v : Value} (h : coerce? g l = some v) :
    g.accepts v.group = true := by
  rw [Group.accepts_iff]
  unfold coerce? at h
  split at h
  case isTrue hg => exact .inl hg
  case isFalse => exact .inr (group_coerceTo? h).symm

end Literal
end Runbook
