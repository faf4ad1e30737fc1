/-!
Repair of a list of operands and connectors: exactly one connector between neighbouring operands,
none at the ends. Of several connectors between two operands the first is kept; where there is none
one is filled in.
-/

namespace Paging

variable {α : Type}

/-- What follows an operand; `pending` is the first connector seen since. -/
def interleaveAfter (isConnector : α → Bool) (fill : α) (pending : Option α) : List α → List α
  | [] => []
  | x :: r =>
    if isConnector x then interleaveAfter isConnector fill (pending.or (some x)) r
    else pending.getD fill :: x :: interleaveAfter isConnector fill none r

/-- The list with one connector between neighbouring operands. -/
def interleave (isConnector : α → Bool) (fill : α) : List α → List α
  | [] => []
  | x :: r =>
    if isConnector x then interleave isConnector fill r
    else x :: interleaveAfter isConnector fill none r

end Paging
