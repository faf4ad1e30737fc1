import Paging.Column
import Paging.Value.Text

/-!
Field lists: the columns that a client asks for, and the columns that it gets.
-/

namespace Paging.FieldList

/-- Letters, digits and `_.,` of ASCII. -/
def isAllowed (c : Letter) : Bool :=
  c.isAlphanum || c == '_' || c == '.' || c == ','

def sanitize (s : Text) : Text :=
  Text.keep isAllowed s

/-- The names in a comma-separated text; what is empty after sanitising is dropped. -/
def ofText (s : Text) : List Text :=
  ((Text.split ',' s).map sanitize).filter fun name => !name.isEmpty

/-- The names that a client's value lists: a text, or a list whose elements are joined by commas. -/
def ofValue (v : Value) : List Text :=
  match v with
  | .text s => ofText s
  | _ =>
    match v.elements? with
    | some [] => []
    | some xs =>
      ofText (Text.intercalate "," (xs.filterMap fun x => match x with
        | .null => none
        | x => some x.display))
    | none => []

def distinct (names : List Text) : List Text :=
  names.foldl (fun seen name => if seen.contains name then seen else seen ++ [name]) []

/-- The fields in force: of a client's list those that the server allows, in the client's order; the
server's list if the client sent none or may not choose; the client's list if the server has none.
None at all stands for every column. -/
def choose (requested : List Text) (allowed : List Text) (enabled : Bool) : List Text :=
  if allowed.isEmpty then
    if enabled then requested else []
  else if !requested.isEmpty && enabled then requested.filter allowed.contains
  else allowed

/-- The selected columns, resolved and without repetition. -/
def select (requested : List Text) (allowed : List Text) (enabled : Bool) : List Text :=
  distinct ((choose requested allowed enabled).map Column.resolve)

end Paging.FieldList
