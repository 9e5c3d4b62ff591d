import Runbook.Catalog

/-!
# Listings

The listings that a user may ask for: one definition, the methods that produce a variable, and the
variables that a method reads.
-/

namespace Runbook.Catalog

/-- A name that a listing does not know. -/
inductive ListingFault where
  | noDefinition (name : String)
  | unknownVariable (name : String)
  | unknownMethod (name : String)
  deriving Repr, DecidableEq

/-- The fault in words. -/
def ListingFault.message : ListingFault → String
  | noDefinition name => s!"No method or workspace variable named '{name}'"
  | unknownVariable name => s!"Unknown workspace variable '{name}'"
  | unknownMethod name => s!"Unknown method '{name}'"

/-- The word that asks for everything. -/
def everything : String := "all"

/-- The definition of a method or, if no method is called so, of a variable. -/
def describe (c : Catalog) (name : String) : Except ListingFault String :=
  match c.findMethod? name, c.findVariable? name with
  | some m, _ => .ok (c.describeMethod m)
  | none, some v =>
    .ok (c.describeVariable v ++
      Text.unlines (itemLine "Produced by" ((c.producers v).map Method.name)))
  | none, none => .error (.noDefinition name)

/-- All methods, or those with a fixed output called `which`. -/
def listMethods (c : Catalog) (which : String) : Except ListingFault String :=
  if which = everything then .ok (Text.unlines (c.methods.map Method.name))
  else
    match c.findVariable? which with
    | some v => .ok (Text.unlines ((c.producers v).map Method.name))
    | none => .error (.unknownVariable which)

/-- A variable with its group. -/
def variableLine (v : Variable) : String :=
  s!"{v.name} ({v.group})"

/-- All variables, or those that the method called `which` reads; of its generic inputs the
groups. -/
def listVariables (c : Catalog) (which : String) : Except ListingFault String :=
  if which = everything then .ok (Text.unlines (c.vars.map variableLine))
  else
    match c.findMethod? which with
    | some m =>
      let d := c.methodAt m
      .ok (Text.unlines
        (d.fixedInputs.map (fun v => variableLine (c.variableAt v)) ++
          d.genericInputs.map fun g => s!"<generic {g}>"))
    | none => .error (.unknownMethod which)

end Runbook.Catalog
