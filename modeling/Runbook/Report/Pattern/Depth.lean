/-!
# Nesting of patterns

How deep the parts of a pattern lie within each other. A row of parts counts as a part of its own
if there are at least two.
-/

namespace Runbook.Pattern

/-- The deepest nesting that a pattern may have. -/
def nestLimit : Nat := 250

/-- The largest of some depths. -/
def deepest (ds : List Nat) : Nat := ds.foldr max 0

/-- The depth of a row of parts, given theirs. -/
def rowDepth : List Nat → Nat
  | [] => 0
  | [d] => d
  | ds => deepest ds + 1

end Runbook.Pattern
