import Paging.Predicate
import Paging.Request

/-!
Compiled queries: the predicate, its parameters, the window of rows and the columns to sort by,
ready for a database.
-/

namespace Paging

structure Query where
  wheres : List Text := []
  params : List Value := []
  limit : Int := 10
  offset : Int := 0
  sorts : List SortKey := []

namespace Query

def whereText (q : Query) : Text := Text.intercalate " " q.wheres

def toFields (q : Query) : Fields :=
  [("where", .text q.whereText), ("params", .list q.params), ("limit", .int q.limit),
   ("offset", .int q.offset), ("sorts", .list (q.sorts.map SortKey.toValue))]

/-- The sort keys with their columns as they stand in a statement; those without a column drop
out. -/
def sortKeys (cfg : Config) (sorts : List SortKey) : List SortKey :=
  (sorts.map fun s => { s with column := Comparison.columnToken cfg s.column }).filter fun s =>
    !s.column.isEmpty

def ofDescriptor (cfg : Config) (d : Descriptor) : Except Text.TemplateError Query := do
  let p ← Predicate.ofFilter cfg d.filter
  return {
    wheres := p.tokens
    params := p.params
    limit := d.size
    offset := d.offset
    sorts := sortKeys cfg d.sorts }

def notices (cfg : Config) (d : Descriptor) : List Notice :=
  Predicate.dropNotices cfg d.filter.comparisons ++
    match ofDescriptor cfg d with
    | .ok q =>
      [⟨.debug, Predicate.source, "Compiled filter: " ++ q.whereText ++ " (" ++
        toString q.params.length ++ " params)"⟩]
    | .error _ => []

end Query

end Paging
