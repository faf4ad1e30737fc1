import Paging.Value.Text

/-!
Failures as they are reported: the kind, the message, a short form for a client and the details for
the operator.
-/

namespace Paging

inductive Failure
  /-- A failure of no special kind. -/
  | general (arguments : List Value)
  /-- Settings are missing or wrong. -/
  | configuration (arguments : List Value)
  /-- A filter could not be read. -/
  | filter (message raw : Value)
  /-- The database did not run a statement. -/
  | execution (message statement : Value)
  /-- A cache did not carry out an operation. -/
  | cache (operation key reason : Value)

namespace Failure

def kind : Failure → String
  | .general _ => "PaginationError"
  | .configuration _ => "ConfigurationError"
  | .filter _ _ => "FilterParseError"
  | .execution _ _ => "QueryExecutionError"
  | .cache _ _ _ => "CacheAdapterError"

def argumentText : List Value → Text
  | [] => ""
  | [v] => v.display
  | vs => (Value.tuple vs).quoted

/-- Where a cache failed, if it was at a key. -/
def keyText : Value → Text
  | .null => ""
  | key => " for key " ++ key.quoted

def message : Failure → Text
  | .general vs => argumentText vs
  | .configuration vs => argumentText vs
  | .filter m _ => m.display
  | .execution m _ => m.display
  | .cache operation key reason =>
    "Cache " ++ operation.display ++ " failed" ++ keyText key ++ ": " ++ reason.display

def toFields : Failure → Fields
  | .filter m _ => [("error", .text "FILTER_PARSE_ERROR"), ("message", m)]
  | .execution m _ => [("error", .text "QUERY_EXECUTION_ERROR"), ("message", m)]
  | f => [("error", .text f.kind), ("message", .text f.message)]

def details : Failure → Fields
  | .filter _ raw => [("raw", raw)]
  | .execution _ statement => [("statement", statement)]
  | .cache operation key reason => [("operation", operation), ("key", key), ("reason", reason)]
  | _ => []

end Failure

end Paging
