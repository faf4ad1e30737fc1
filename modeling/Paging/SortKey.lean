import Paging.FieldList
import Paging.Text.Blank

/-!
Sort lists. A client writes the columns separated by commas, with a minus before each that descends;
the columns without one take the direction of the request.
-/

namespace Paging

inductive Direction
  | ascending | descending
  deriving DecidableEq

namespace Direction

def text : Direction → Text
  | .ascending => "ASC"
  | .descending => "DESC"

/-- The direction that a request's order asks for: ascending unless it says otherwise. -/
def ofOrder : Value → Direction
  | .text s => if Text.upper (Text.strip s) = "DESC" then .descending else .ascending
  | _ => .ascending

end Direction

structure SortKey where
  column : Text
  direction : Direction := .ascending
  deriving DecidableEq

namespace SortKey

/-- Letters, digits and `_.` of ASCII. -/
def isAllowed (c : Letter) : Bool :=
  c.isAlphanum || c == '_' || c == '.'

/-- An entry of a sort list; nothing if no column is left of it. -/
def ofItem? (fallback : Direction) (entry : Text) : Option SortKey :=
  let cs := Text.trimBy Text.isBlank entry.toList
  let (column, direction) := match cs with
    | '-' :: r => (r, Direction.descending)
    | _ => (cs, fallback)
  let column := Text.ofList (column.filter isAllowed)
  if column.isEmpty then none else some ⟨column, direction⟩

def ofValue (v order : Value) : List SortKey :=
  let entries := match v with
    | .text s => Text.split ',' s
    | v => (v.elements?.getD []).filterMap fun (x : Value) => match x with
      | .text s => some s
      | _ => none
  entries.filterMap (ofItem? (Direction.ofOrder order))

def toValue (s : SortKey) : Value :=
  .object [("column", .text s.column), ("direction", .text s.direction.text)]

end SortKey

end Paging
