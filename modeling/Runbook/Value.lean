import Runbook.Group
import Runbook.Matrix
import Runbook.Decimal.Double

/-!
# Values, tasks and pipelines

A workspace variable holds a number, a text, an array, a matrix or a pipeline. A pipeline is a named
list of tasks, and a task holds keyword values and possibly a pipeline of its own, so the three
types are defined together.

Numbers are compared as numbers: zero equals minus zero and NaN does not equal itself. `==` on
values, tasks and pipelines goes down to that comparison.
-/

namespace Runbook

/-- A workspace variable, by its position in the catalog. -/
structure VariableId where
  index : Nat
  deriving Repr, DecidableEq

/-- A method, by its position in the catalog. -/
structure MethodId where
  index : Nat
  deriving Repr, DecidableEq

instance : ToString VariableId := ⟨fun v => "wsv#" ++ toString v.index⟩

instance : ToString MethodId := ⟨fun m => "md#" ++ toString m.index⟩

mutual

/-- What a workspace variable or a keyword holds. -/
inductive Value where
  | index (i : Int64)
  | numeric (x : Float)
  | string (s : String)
  | vector (xs : List Float)
  | indexArray (is : List Int64)
  | stringArray (ss : List String)
  | matrix (m : Matrix)
  | pipeline (p : Pipeline)

/-- One invocation of a method: keyword values in declaration order, the variables in its generic
slots, and the pipeline written in its body. -/
structure Task where
  method : MethodId
  keywords : List Value
  outputs : List VariableId
  inputs : List VariableId
  embedded : Option Pipeline

/-- A named list of tasks. -/
structure Pipeline where
  name : String
  tasks : List Task

end

instance : Inhabited Value := ⟨.index 0⟩

instance : Inhabited Pipeline := ⟨⟨"", []⟩⟩

instance : Inhabited Task := ⟨⟨⟨0⟩, [], [], [], none⟩⟩

/-! ## Equality -/

mutual

/-- Equal groups and contents. -/
def Value.same : Value → Value → Bool
  | .index i, .index j => i == j
  | .numeric x, .numeric y => x == y
  | .string s, .string t => s == t
  | .vector xs, .vector ys => xs == ys
  | .indexArray is, .indexArray js => is == js
  | .stringArray ss, .stringArray ts => ss == ts
  | .matrix m, .matrix n => m == n
  | .pipeline p, .pipeline q => Pipeline.same p q
  | _, _ => false

/-- Value by value. -/
def Value.sameAll : List Value → List Value → Bool
  | [], [] => true
  | v :: vs, w :: ws => Value.same v w && Value.sameAll vs ws
  | _, _ => false

/-- Same method, slots, keyword values and embedded pipeline. -/
def Task.same : Task → Task → Bool
  | ⟨m, ks, os, is, none⟩, ⟨m', ks', os', is', none⟩ =>
    m == m' && Value.sameAll ks ks' && os == os' && is == is'
  | ⟨m, ks, os, is, some p⟩, ⟨m', ks', os', is', some p'⟩ =>
    m == m' && Value.sameAll ks ks' && os == os' && is == is' && Pipeline.same p p'
  | _, _ => false

/-- Task by task. -/
def Task.sameAll : List Task → List Task → Bool
  | [], [] => true
  | t :: ts, u :: us => Task.same t u && Task.sameAll ts us
  | _, _ => false

/-- Same name and tasks. -/
def Pipeline.same : Pipeline → Pipeline → Bool
  | ⟨n, ts⟩, ⟨n', ts'⟩ => n == n' && Task.sameAll ts ts'

end

instance : BEq Value := ⟨Value.same⟩

instance : BEq Task := ⟨Task.same⟩

instance : BEq Pipeline := ⟨Pipeline.same⟩

/-! ## Groups of values -/

namespace Value

/-- The concrete group of a value. -/
def group : Value → Group
  | index _ => .index
  | numeric _ => .numeric
  | string _ => .string
  | vector _ => .vector
  | indexArray _ => .indexArray
  | stringArray _ => .stringArray
  | matrix _ => .matrix
  | pipeline _ => .pipeline

theorem group_ne_any (v : Value) : v.group ≠ .any := by
  cases v <;> simp [group]

end Value

/-- What a fresh variable of the group holds; `any` has no such value. -/
def Group.default? : Group → Option Value
  | .index => some (.index 0)
  | .numeric => some (.numeric 0)
  | .string => some (.string "")
  | .vector => some (.vector [])
  | .indexArray => some (.indexArray [])
  | .stringArray => some (.stringArray [])
  | .matrix => some (.matrix .empty)
  | .pipeline => some (.pipeline ⟨"", []⟩)
  | .any => none

theorem Group.group_of_default? {g : Group} {v : Value} (h : g.default? = some v) :
    v.group = g := by
  cases g <;> simp_all [Group.default?] <;> subst h <;> rfl

theorem Group.default?_eq_none_iff {g : Group} : g.default? = none ↔ g = .any := by
  cases g <;> simp [Group.default?]

/-! ## Contents of a value -/

/-- A value of another group than the one asked for. -/
structure GroupMismatch where
  expected : Group
  found : Group
  deriving Repr, DecidableEq

/-- The mismatch in words. -/
def GroupMismatch.message (e : GroupMismatch) : String :=
  s!"expected {e.expected} value, found {e.found}"

namespace Value

/-- The integer in an index. -/
def asIndex : Value → Except GroupMismatch Int64
  | index i => .ok i
  | v => .error ⟨.index, v.group⟩

/-- The number in a numeric, or an index as the nearest double. -/
def asNumeric : Value → Except GroupMismatch Float
  | numeric x => .ok x
  | index i => .ok (Double.ofInt i.toInt)
  | v => .error ⟨.numeric, v.group⟩

/-- The text in a string. -/
def asString : Value → Except GroupMismatch String
  | string s => .ok s
  | v => .error ⟨.string, v.group⟩

/-- The numbers in a vector. -/
def asVector : Value → Except GroupMismatch (List Float)
  | vector xs => .ok xs
  | v => .error ⟨.vector, v.group⟩

/-- The integers in an array of indices. -/
def asIndexArray : Value → Except GroupMismatch (List Int64)
  | indexArray is => .ok is
  | v => .error ⟨.indexArray, v.group⟩

/-- The texts in an array of strings. -/
def asStringArray : Value → Except GroupMismatch (List String)
  | stringArray ss => .ok ss
  | v => .error ⟨.stringArray, v.group⟩

/-- The matrix in a matrix value. -/
def asMatrix : Value → Except GroupMismatch Matrix
  | matrix m => .ok m
  | v => .error ⟨.matrix, v.group⟩

/-- The pipeline in a pipeline value. -/
def asPipeline : Value → Except GroupMismatch Pipeline
  | pipeline p => .ok p
  | v => .error ⟨.pipeline, v.group⟩

end Value
end Runbook
