/-!
Membership of a code point in a table of ranges.
-/

namespace Paging.Text

/-- Lies in one of the ranges, both ends included. -/
def inRanges (ranges : List (Nat × Nat)) (n : Nat) : Bool :=
  ranges.any fun r => r.1 ≤ n && n ≤ r.2

end Paging.Text
