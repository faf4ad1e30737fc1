import Paging.Notice
import Paging.Query

/-!
Executors run queries against a database: one counts the rows of a query, the other fetches those in
its window.
-/

namespace Paging

inductive ExecutionError
  /-- The database refused it, and perhaps the statement is known. -/
  | refused (message : String) (statement : Option Text)
  /-- The condition has more placeholders than parameters. -/
  | missingParameter
  /-- Something else went wrong. -/
  | other (message : Text)
  deriving DecidableEq

structure Executor where
  /-- The table that is queried. -/
  name : String := ""
  dialect : Option String := none
  count : Query → Except ExecutionError Int
  /-- The rows of the window, with the named columns or with all if none is named. -/
  fetch : Query → List Text → Except ExecutionError (List Row)
  /-- The notices about the columns of a fetch. -/
  remarks : List Text → List Notice := fun _ => []

inductive Call
  | count (q : Query)
  | fetch (q : Query) (fields : List Text)

namespace Call

def toFields : Call → Fields
  | .count q => [("count", .text q.whereText)]
  | .fetch q fields =>
    [("fetch", .object (q.toFields ++ ([("fields", .list (fields.map .text))] : Fields)))]

end Call

namespace Executor

def window (rows : List Row) (limit offset : Int) : List Row :=
  (rows.drop offset.toNat).take limit.toNat

/-- The executor of a list of rows, which heeds the window of a query alone. -/
def ofRows (name : String) (dialect : Option String) (rows : List Row) : Executor where
  name := name
  dialect := dialect
  count := fun _ => .ok rows.length
  fetch := fun q _ => .ok (window rows q.limit q.offset)

end Executor

end Paging
