/-!
# Ranges of code points

Character properties are given as closed ranges of code points in ascending order.
-/

namespace Runbook.Text

/-- Closed ranges of code points. -/
abbrev CodeRanges := List (Nat × Nat)

/-- Whether `c` lies in one of the ranges. -/
def inRanges (ranges : CodeRanges) (c : Char) : Bool :=
  ranges.any fun r => r.1 ≤ c.toNat && c.toNat ≤ r.2

end Runbook.Text
