import Paging.Query
import Paging.Json.Printer
import Paging.Validation
import Paging.Json.Reader

/-!
Pages: the rows of one page and where the page stands in the whole list.
-/

namespace Paging

structure Metrics where
  totalPages : Int
  maxPage : Int
  first : Bool
  last : Bool
  visible : Int
  deriving DecidableEq

namespace Metrics

/-- How many pages the rows fill. Without a positive limit they all stand on one. -/
def pageCount (total limit : Int) : Int :=
  if total < 1 then 0 else if limit < 1 then 1 else (total + limit - 1) / limit

def compute (total limit offset page rows : Int) : Metrics :=
  let count := pageCount total limit
  { totalPages := count
    maxPage := count
    first := offset < 1
    last := page == count
    visible := rows }

end Metrics

structure Page where
  items : List Row := []
  page : Int := 1
  size : Int := 0
  maxPage : Int := 0
  totalPages : Int := 0
  total : Int := 0
  last : Bool := false
  first : Bool := true
  visible : Int := 0
  error : Bool := false
  errorMessage : Option String := none

namespace Value

mutual

/-- What is left of a value in JSON: no infinities, no tuples, no bytes. -/
def jsonReady : Value → Value
  | .float (.finite negative x) => .float (.finite negative x)
  | .float _ => .null
  | .bytes b => .text (String.ofList (Text.Utf8.decodeReplacing b))
  | .list xs => .list (jsonReadyList xs)
  | .tuple xs => .list (jsonReadyList xs)
  | .object fields => .object (jsonReadyFields fields)
  | v => v

def jsonReadyList : List Value → List Value
  | [] => []
  | x :: xs => jsonReady x :: jsonReadyList xs

def jsonReadyFields : List (Text × Value) → List (Text × Value)
  | [] => []
  | (k, x) :: r => (k, jsonReady x) :: jsonReadyFields r

end

end Value

namespace Page

def build (items : List Row) (total : Int) (q : Query) (d : Descriptor) : Page :=
  let m := Metrics.compute total q.limit q.offset d.page items.length
  { items := items
    page := d.page
    size := d.size
    maxPage := m.maxPage
    totalPages := m.totalPages
    total := total
    last := m.last
    first := m.first
    visible := m.visible }

/-- The empty page of a failed query; the message shows only if it may. -/
def buildError (message : String) (q : Query) (d : Descriptor) (surface : Bool) : Page :=
  let page := build [] 0 q d
  if surface then { page with error := true, errorMessage := some message } else page

def allFields (p : Page) : Fields :=
  [("items", .list (Value.jsonReadyList (p.items.map Row.value))), ("page", .int p.page),
   ("size", .int p.size), ("max_page", .int p.maxPage), ("total_pages", .int p.totalPages),
   ("total", .int p.total),
   ("last", .bool p.last), ("first", .bool p.first), ("visible", .int p.visible),
   ("error", .bool p.error),
   ("error_message", match p.errorMessage with
     | some m => .text m
     | none => .null)]

/-- The fields that a client sees: those of the error only if there was one. -/
def toFields (p : Page) : Fields :=
  if p.error then p.allFields
  else p.allFields.filter fun f => f.1 != "error" && f.1 != "error_message"

/-- The text under which a page is stored. -/
def toJson (p : Page) : Text :=
  Json.stored.render (.object p.allFields)

open Validation

def toRows (v : Value) : Except ProblemKind (List Row) := do
  let xs ← toList v
  (xs.mapM Row.ofValue?).elim (.error .stringUnicode) .ok

def ofFields (fields : Fields) : Checked Page :=
  let base : Page := {}
  let items := field fields "items" base.items toRows
  let page := field fields "page" base.page toInt
  let size := field fields "size" base.size toInt
  let maxPage := field fields "max_page" base.maxPage toInt
  let totalPages := field fields "total_pages" base.totalPages toInt
  let total := field fields "total" base.total toInt
  let last := field fields "last" base.last toBool
  let first := field fields "first" base.first toBool
  let visible := field fields "visible" base.visible toInt
  let error := field fields "error" base.error toBool
  let errorMessage := field fields "error_message" base.errorMessage (orNull toText)
  let found := List.flatten
    [problems items, problems page, problems size, problems maxPage, problems totalPages,
     problems total, problems last, problems first, problems visible, problems error,
     problems errorMessage]
  if found.isEmpty then do
    return {
      items := ← items
      page := ← page
      size := ← size
      maxPage := ← maxPage
      totalPages := ← totalPages
      total := ← total
      last := ← last
      first := ← first
      visible := ← visible
      error := ← error
      errorMessage := ← errorMessage }
  else .error found

/-- How deeply containers may be nested in a stored page. -/
def storedRoom : Nat := 201

/-- The page of a stored text. One with half a surrogate pair in it is no text of a page. -/
def ofJson (text : Text) : Checked Page :=
  match Json.read storedRoom text.toList with
  | .error _ => .error [⟨[], .jsonInvalid⟩]
  | .ok v =>
    if v.isWhole then
      match v with
      | .object fields => ofFields fields
      | _ => .error [⟨[], .modelType⟩]
    else .error [⟨[], .jsonInvalid⟩]

def ofStored (v : Value) : Checked Page :=
  match v with
  | .text s => ofJson s
  | .bytes b =>
    match Text.Utf8.decode b with
    | .ok s => ofJson s
    | .error _ => .error [⟨[], .jsonInvalid⟩]
  | _ => .error [⟨[], .jsonInvalid⟩]

end Page

end Paging
