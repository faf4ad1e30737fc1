import Paging.Value.Text

/-!
Whole floats as integers, for parameters that are compared with integer columns.
-/

namespace Paging
namespace Value

open Decimal

/-- The integer that replaces a float: its value, if that is whole, not negative and below the
limit. -/
def wholeNat? (x : Binary64) : Option Int :=
  (wholeFloat? x).filter fun n => 0 ≤ n

mutual

/-- Replace whole floats by integers, in lists at any depth; tuples become lists. -/
def coerced : Value → Value
  | .list xs => .list (coercedList xs)
  | .tuple xs => .list (coercedList xs)
  | .float x => match wholeNat? x with
    | some n => .int n
    | none => .float x
  | v => v

def coercedList : List Value → List Value
  | [] => []
  | x :: xs => coerced x :: coercedList xs

end

end Value
end Paging
