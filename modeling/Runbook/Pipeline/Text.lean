import Runbook.Pipeline
import Runbook.Value.Text

/-!
# Pipelines as control files

A pipeline in the syntax of control files: one task after the other, two spaces of indent per
nesting level, each keyword on a line of its own. A task without keywords and without tasks in its
body is one line.
-/

namespace Runbook

/-- Two spaces per nesting level. -/
def indent (depth : Nat) : String :=
  String.join (List.replicate depth "  ")

/-- Method name and generic variables. -/
def Task.heading (c : Catalog) (m : MethodId) (generics : List VariableId) : String :=
  (c.methodAt m).name ++
    if generics.isEmpty then ""
    else "(" ++ ", ".intercalate (generics.map fun v => (c.variableAt v).name) ++ ")"

/-- One line per keyword. -/
def Task.keywordLines (c : Catalog) (m : MethodId) (depth : Nat) (values : List Value) :
    List String :=
  List.zipWith (fun k v => s!"{indent (depth + 1)}{k.name} = {v.text}")
    (c.methodAt m).keywords values

mutual

/-- The lines of a task at nesting level `depth`. -/
def Task.lines (c : Catalog) (depth : Nat) : Task → List String
  | ⟨m, ks, os, is, none⟩ =>
    let head := indent depth ++ Task.heading c m (os ++ is)
    if ks.isEmpty then [head ++ " \x7b\x7d"]
    else (head ++ " \x7b") :: (Task.keywordLines c m depth ks ++ [indent depth ++ "\x7d"])
  | ⟨m, ks, os, is, some p⟩ =>
    let head := indent depth ++ Task.heading c m (os ++ is)
    let body := Pipeline.lines c (depth + 1) p
    if ks.isEmpty && body.isEmpty then [head ++ " \x7b\x7d"]
    else (head ++ " \x7b") :: (Task.keywordLines c m depth ks ++ body ++ [indent depth ++ "\x7d"])

/-- The lines of several tasks. -/
def Task.allLines (c : Catalog) (depth : Nat) : List Task → List String
  | [] => []
  | t :: ts => Task.lines c depth t ++ Task.allLines c depth ts

/-- The lines of a pipeline's tasks. -/
def Pipeline.lines (c : Catalog) (depth : Nat) : Pipeline → List String
  | ⟨_, ts⟩ => Task.allLines c depth ts

end

/-- The pipeline as a control file. -/
def Pipeline.text (c : Catalog) (p : Pipeline) : String :=
  Text.unlines (p.lines c 0)

end Runbook
