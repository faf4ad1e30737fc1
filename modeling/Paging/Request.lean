import Paging.Filter.Reader
import Paging.Http.Request
import Paging.SortKey

/-!
Requests for a page. A request of any shape is reduced to six raw parameters, and these to a
descriptor: which page of which size, in which order, with which fields, under which filter.
Whatever cannot be used falls back to a default.
-/

namespace Paging

inductive Request
  | none
  | http (r : Http.Request)
  | mapping (fields : Fields)
  | other (v : Value)

structure Parameters where
  page : Value := .null
  size : Value := .null
  sort : Value := .null
  order : Value := .null
  filters : Value := .null
  fields : Value := .null

namespace Parameters

/-- Null or an empty text. -/
def isMissing : Value → Bool
  | .null => true
  | .text s => s.isEmpty
  | _ => false

def valueOf (fields : Fields) (name : Text) : Value :=
  (fields.get? name).getD .null

/-- The first value under one of the aliases that is not missing, else the one under the plain
name. -/
def find (fields : Fields) (aliases : List String) (name : Text) : Value :=
  let values := aliases.map fun (a : String) => valueOf fields a
  (values.find? fun v => !(isMissing v)).getD (valueOf fields name)

/-- The parameters under their own names, or under their aliases if the settings say so. -/
def ofFields (cfg : Config) (fields : Fields) : Parameters :=
  let find (aliases : List String) (name : Text) : Value :=
    if cfg.customParams then find fields aliases name else valueOf fields name
  { page := find cfg.pageParams "page"
    size := find cfg.sizeParams "size"
    sort := find cfg.sortParams "sort"
    order := find cfg.orderParams "order"
    filters := find cfg.filterParams "filters"
    fields := find cfg.fieldsParams "fields" }

end Parameters

namespace Request

def fields : Request → Fields
  | .http r => r.parameters
  | .mapping fields => fields
  | _ => []

def parameters (cfg : Config) (r : Request) : Parameters :=
  Parameters.ofFields cfg r.fields

def shapeNotices : Request → List Notice
  | .http r => r.notices
  | .other v =>
    [⟨.warning, Http.Request.source, "Unsupported request type " ++ v.kind ++ "; using defaults"⟩]
  | _ => []

end Request

structure Descriptor where
  page : Int := 1
  size : Int := 10
  sorts : List SortKey := []
  fields : List Text := []
  filter : Filter := .empty

namespace Descriptor

def offset (d : Descriptor) : Int := (d.page - 1) * d.size

/-- The greatest number that a database takes for a limit or an offset. -/
def maxNumber : Int := Int.pow 2 63 - 1

/-- The whole number that a text writes between blanks. -/
def textNumber? (s : Text) : Option Int := Decimal.readInt? (Text.strip s)

def rawNumber? : Value → Option Int
  | .int n => some n
  | .float x => x.toInt?
  | .bytes b => textNumber? (Text.Utf8.decodeDropping b)
  | .text s => textNumber? s
  | _ => none

def number? (v : Value) : Option Int :=
  (rawNumber? v).filter fun n => n.natAbs ≤ maxNumber.natAbs

def positive? (v : Value) : Option Int :=
  (number? v).filter fun n => 0 < n

def sizeOf (cfg : Config) (v : Value) : Int :=
  (positive? v).getD cfg.pageSize

/-- The page that is asked for, unless its offset is too large for a database; else the first. -/
def pageOf (size : Int) (v : Value) : Int :=
  ((positive? v).filter fun p => (p - 1) * size ≤ maxNumber).getD 1

def ofParameters (cfg : Config) (p : Parameters) : Descriptor :=
  let size := sizeOf cfg p.size
  { page := pageOf size p.page
    size := size
    sorts := SortKey.ofValue p.sort p.order
    fields := FieldList.ofValue p.fields
    filter := Filter.ofInput cfg p.filters }

def ofRequest (cfg : Config) (r : Request) : Descriptor :=
  ofParameters cfg (r.parameters cfg)

def notices (cfg : Config) (r : Request) : List Notice :=
  r.shapeNotices ++ Filter.inputNotices (r.parameters cfg).filters

def toFields (d : Descriptor) : Fields :=
  [("page", .int d.page), ("size", .int d.size), ("sorts", .list (d.sorts.map SortKey.toValue)),
   ("fields", .list (d.fields.map .text)), ("filters", d.filter.toValue)]

end Descriptor

end Paging
