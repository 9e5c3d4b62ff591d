import Runbook.Text.Blank

/-!
# Value groups

The group of a workspace variable, a generic slot or a keyword. Eight groups are concrete; `any`
occurs in slot declarations only and accepts every group.
-/

namespace Runbook

/-- What a variable holds, or what a slot accepts. -/
inductive Group where
  | index
  | numeric
  | string
  | vector
  | indexArray
  | stringArray
  | matrix
  | pipeline
  | any
  deriving Repr, DecidableEq

namespace Group

/-- Every group, in the order of listings. -/
def all : List Group :=
  [index, numeric, string, vector, indexArray, stringArray, matrix, pipeline, any]

/-- The group's name in listings and messages. -/
def name : Group → String
  | index => "Index"
  | numeric => "Numeric"
  | string => "String"
  | vector => "Vector"
  | indexArray => "ArrayOfIndex"
  | stringArray => "ArrayOfString"
  | matrix => "Matrix"
  | pipeline => "Pipeline"
  | any => "Any"

instance : ToString Group := ⟨name⟩

/-- The group called `s`, blanks at the ends aside. -/
def ofName? (s : String) : Option Group :=
  all.find? fun g => g.name == Text.trim s

/-- Whether a value of group `found` may stand in a slot declared as `declared`. -/
def accepts (declared found : Group) : Bool :=
  declared == any || declared == found

theorem accepts_iff {declared found : Group} :
    declared.accepts found = true ↔ declared = any ∨ declared = found := by
  simp [accepts]

end Group
end Runbook
