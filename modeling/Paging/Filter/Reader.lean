import Paging.Config
import Paging.Filter
import Paging.Json.Input
import Paging.Like
import Paging.Notice
import Paging.Value.Text

/-!
Reading a filter from nested lists. A list of one text is a connector, a list of a column and a
value or of a column, an operator and a value is a comparison, and the lists that stand in a list
in place of a column or operator are its operands. What cannot be read is dropped; a list too deep
is dropped as a whole.
-/

namespace Paging.Filter

/-- How many lists may stand around a list that is read. -/
def maxDepth : Nat := 32

def lists (xs : List Value) : List (List Value) :=
  xs.filterMap fun x => match x with
    | .list ys => some ys
    | _ => none

/-- The operands of a list: the lists in it up to the text that makes it a comparison. -/
def operands : List Value → List (List Value)
  | [.text _, _] => []
  | [.text _, _, _] => []
  | [x, .text _, _] => lists [x]
  | xs => lists xs

def patternMatch (cfg : Config) (column : Text) (a : LikeAlias) (v : Value) : Comparison :=
  let d := cfg.sqlDialect
  let text := Like.escape d.escapeChar v.plain
  let text := if cfg.smartSearch then Like.foldBlanks text else text
  { column := column
    operator := a.operator.text
    value := .text (Like.wrap a.leading a.trailing text)
    suffix := d.escapeSuffix }

def spelled (cfg : Config) (column : Text) (s : Spelling) (v : Value) : Comparison :=
  match s with
  | .comparison o => { column := column, operator := o.text, value := v }
  | .pattern _ a => patternMatch cfg column a v

/-- The operator of a comparison that names none. -/
def impliedOperator : Value → FilterOperator
  | .null => .is
  | _ => .eq

/-- A list without operands: a connector, a comparison, or nothing. -/
def leaf? (cfg : Config) : List Value → Option Filter
  | [.text s] => (Connector.read? s).map fun c => .connector c.text
  | [.text column, v] =>
    if column.isEmpty then none
    else some (.comparison { column := column, operator := (impliedOperator v).text, value := v })
  | [.text column, .text op, v] =>
    if column.isEmpty then none
    else (Spelling.read? op).map fun s => .comparison (spelled cfg column s v)
  | _ => none

/-- The group of some operands and connectors; none without an operand. -/
def groupOf? (cfg : Config) (children : List Filter) : Option Filter :=
  match interleave isConnector (.connector cfg.operator.text) children with
  | [] => none
  | siblings => some (.group siblings)

/-- Read a list; `room` is how deep it may still go, the list itself included. -/
def ofList? (cfg : Config) : Nat → List Value → Option Filter
  | 0, _ => none
  | room + 1, xs =>
    match (operands xs).filterMap (ofList? cfg room) with
    | [] => leaf? cfg xs
    | children => groupOf? cfg children

/-- How many lists are dropped because they are too deep. -/
def tooDeep : Nat → List Value → Nat
  | 0, _ => 1
  | room + 1, xs => ((operands xs).map (tooDeep room)).sum

/-- The filter of a decoded value; a value that is none gives the empty filter. -/
def ofValue (cfg : Config) : Value → Filter
  | .list xs =>
    match ofList? cfg (maxDepth + 1) xs with
    | some (.connector _) => empty
    | some f => f
    | none => empty
  | _ => empty

inductive ReadError
  | unreadable (text : List Letter) (e : Json.Error)
  | notList

def ReadError.message : ReadError → String
  | .unreadable text e => "Invalid filter JSON: " ++ e.message text
  | .notList => "Filter expression must be an array"

def decode (v : Value) : Except ReadError Value :=
  match Json.readInput v with
  | .error (text, e) => .error (.unreadable text e)
  | .ok (.list xs) => .ok (.list xs)
  | .ok _ => .error .notList

def ofJson (cfg : Config) (v : Value) : Except ReadError Filter :=
  (decode v).map (ofValue cfg)

def isBlankInput : Value → Bool
  | .text s => Text.allBlank s
  | .bytes b => b.all Text.isBlankByte
  | _ => false

/-- The filter of whatever a client sent: a JSON text, or the lists themselves. -/
def ofInput (cfg : Config) (v : Value) : Filter :=
  match v with
  | .text _ | .bytes _ => if isBlankInput v then empty else (ofJson cfg v).toOption.getD empty
  | v => ofValue cfg v

def source : String := "query_paginator.parser"

def valueNotices (v : Value) : List Notice :=
  match v with
  | .list (x :: xs) =>
    List.replicate (tooDeep (maxDepth + 1) (x :: xs))
      ⟨.warning, source,
        "Filter expression nested deeper than " ++ toString maxDepth ++ "; ignored"⟩
  | _ => []

def jsonNotices (v : Value) : List Notice :=
  match decode v with
  | .ok v => valueNotices v
  | .error (.unreadable text e) =>
    [⟨.warning, source, "Ignoring unparseable filter expression: " ++ e.message text⟩]
  | .error .notList => [⟨.warning, source, "Ignoring non-array filter expression"⟩]

def inputNotices (v : Value) : List Notice :=
  match v with
  | .text _ | .bytes _ => if isBlankInput v then [] else jsonNotices v
  | v => valueNotices v

end Paging.Filter
