import Paging.Value
import Paging.Interleave

/-!
Filters: comparisons joined by connectors into groups. A tree may be parsed or built by hand, so its
operators and connectors are kept as text.
-/

namespace Paging

/-- A column compared with a value. The suffix follows the parameter in the predicate. -/
structure Comparison where
  column : Text
  operator : Text
  value : Value := .null
  suffix : Text := ""

inductive Filter
  | comparison (c : Comparison)
  | connector (symbol : Text)
  | group (children : List Filter)

namespace Filter

def empty : Filter := .group []

instance : Inhabited Filter := ⟨empty⟩

def isConnector : Filter → Bool
  | .connector _ => true
  | _ => false

mutual

def comparisons : Filter → List Comparison
  | .comparison c => [c]
  | .connector _ => []
  | .group children => comparisonsOf children

def comparisonsOf : List Filter → List Comparison
  | [] => []
  | f :: fs => comparisons f ++ comparisonsOf fs

end

mutual

/-- A filter as a value with the kind of each node. A comparison shows its suffix if it has one. -/
def toValue : Filter → Value
  | .comparison c =>
    .object (([("type", .text "comparison"), ("column", .text c.column),
      ("operator", .text c.operator), ("value", c.value)] : Fields) ++
      if c.suffix.isEmpty then [] else ([("value_suffix", .text c.suffix)] : Fields))
  | .connector symbol => .object [("type", .text "operator"), ("symbol", .text symbol)]
  | .group children => .object [("type", .text "group"), ("children", .list (toValues children))]

def toValues : List Filter → List Value
  | [] => []
  | f :: fs => toValue f :: toValues fs

end

end Filter

end Paging
