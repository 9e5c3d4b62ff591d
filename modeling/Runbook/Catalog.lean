import Runbook.NameIndex
import Runbook.Text.Blank
import Runbook.Value

/-!
# Catalogs

The workspace variables and methods that control files may name. A variable or method is known by
its position in the catalog, and is found under its name in an index that is kept beside the list.

A catalog as such does not promise that its indexes fit its lists; those that are built do.
-/

namespace Runbook

/-- A workspace variable and what it holds. -/
structure Variable where
  name : String
  group : Group
  description : String
  deriving Repr, DecidableEq

/-- A keyword of a method. -/
structure Keyword where
  name : String
  group : Group
  deriving Repr, DecidableEq

/-- What a method reads, writes and is told. Fixed slots name variables of the catalog; generic
slots are filled in by each task. -/
structure Method where
  name : String
  description : String
  fixedOutputs : List VariableId
  fixedInputs : List VariableId
  genericOutputs : List Group
  genericInputs : List Group
  keywords : List Keyword
  /-- Whether the body of an invocation holds a pipeline. -/
  embeds : Bool
  deriving Repr, DecidableEq

namespace Method

/-- The groups of all generic slots, outputs first. -/
def generics (m : Method) : List Group :=
  m.genericOutputs ++ m.genericInputs

/-- The position of the first keyword called `name`. -/
def findKeyword? (m : Method) (name : String) : Option Nat :=
  m.keywords.findIdx? fun k => k.name == name

end Method

/-- All variables and methods, and what their names stand for. -/
structure Catalog where
  vars : List Variable
  variableIndex : NameIndex VariableId
  methods : List Method
  methodIndex : NameIndex MethodId
  deriving Repr, DecidableEq

namespace Catalog

/-- The variable `v`. -/
def variableAt? (c : Catalog) (v : VariableId) : Option Variable :=
  c.vars[v.index]?

/-- The method `m`. -/
def methodAt? (c : Catalog) (m : MethodId) : Option Method :=
  c.methods[m.index]?

/-- The variable `v`; of an unknown one, nothing is known. -/
def variableAt (c : Catalog) (v : VariableId) : Variable :=
  (c.variableAt? v).getD ⟨"", .any, ""⟩

/-- The method `m`; an unknown one has no slots. -/
def methodAt (c : Catalog) (m : MethodId) : Method :=
  (c.methodAt? m).getD ⟨"", "", [], [], [], [], [], false⟩

/-- The variable called `name`. -/
def findVariable? (c : Catalog) (name : String) : Option VariableId :=
  c.variableIndex.find? name

/-- The method called `name`. -/
def findMethod? (c : Catalog) (name : String) : Option MethodId :=
  c.methodIndex.find? name

/-- Every variable, by position. -/
def variableIds (c : Catalog) : List VariableId :=
  (List.range c.vars.length).map VariableId.mk

/-- Every method, by position. -/
def methodIds (c : Catalog) : List MethodId :=
  (List.range c.methods.length).map MethodId.mk

/-- The methods with `v` among their fixed outputs. -/
def producers (c : Catalog) (v : VariableId) : List Method :=
  c.methods.filter fun m => m.fixedOutputs.contains v

/-- The methods with `v` among their fixed inputs. -/
def consumers (c : Catalog) (v : VariableId) : List Method :=
  c.methods.filter fun m => m.fixedInputs.contains v

/-! ## Descriptions -/

/-- `label` and the items on one line, or nothing if there are no items. -/
def itemLine (label : String) (items : List String) : List String :=
  if items.isEmpty then [] else [s!"  {label}: " ++ ", ".intercalate items]

/-- An indented line, unless there is nothing to say. -/
def textLine (s : String) : List String :=
  if s.isEmpty then [] else ["  " ++ s]

/-- What the catalog says about a variable. -/
def describeVariable (c : Catalog) (v : VariableId) : String :=
  let d := c.variableAt v
  Text.unlines
    ([s!"Workspace variable: {d.name}", s!"  Group: {d.group}"] ++ textLine d.description)

/-- What the catalog says about a method. -/
def describeMethod (c : Catalog) (m : MethodId) : String :=
  let d := c.methodAt m
  let names (vs : List VariableId) := vs.map fun v => (c.variableAt v).name
  Text.unlines <|
    [s!"Method: {d.name}"] ++ textLine d.description ++
    itemLine "Output" (names d.fixedOutputs) ++
    itemLine "Input" (names d.fixedInputs) ++
    itemLine "Generic output" (d.genericOutputs.map Group.name) ++
    itemLine "Generic input" (d.genericInputs.map Group.name) ++
    d.keywords.map (fun k => s!"  Keyword: {k.name} ({k.group})") ++
    if d.embeds then ["  Embeds a pipeline"] else []

end Catalog
end Runbook
