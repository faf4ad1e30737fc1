import Paging.Sql.Clause

/-!
Statements over the rows of a base statement, which stands in parentheses under the name `s`: one
that counts its rows, and one that selects columns of them. Both print with named parameters; a
parameter without a name of its own takes the next number of its kind, from left to right.
-/

namespace Paging.Sql

inductive BindName
  | given (name : Text)
  /-- The next free number behind `seed`. -/
  | numbered (seed : Text)
  deriving DecidableEq

def BindName.isNumbered : BindName → Bool
  | .given _ => false
  | .numbered _ => true

inductive Piece
  | text (s : Text)
  | bind (name : BindName) (b : Bind)
  /-- The name of a column that takes the next free number behind `seed`. -/
  | label (seed : Text)

structure Base where
  /-- Its first table, if it has one. -/
  table : String := ""
  columns : List Text
  body : List Piece

inductive Projection
  | count
  | columns (names : List Text)
  deriving DecidableEq

structure Statement where
  projection : Projection
  base : Base
  condition : Option Clause := none
  order : List Clause := []
  /-- Limit and offset. -/
  window : Option (Int × Int) := none

/-- Words that name a column only between quotes. -/
def reservedWords : List String :=
  ["all", "analyse", "analyze", "and", "any", "array", "as", "asc", "asymmetric", "authorization",
   "between", "binary", "both", "case", "cast", "check", "collate", "column", "constraint",
   "create", "cross", "current_date", "current_role", "current_time", "current_timestamp",
   "current_user", "default", "deferrable", "desc", "distinct", "do", "else", "end", "except",
   "false", "for", "foreign", "freeze", "from", "full", "grant", "group", "having", "ilike", "in",
   "initially", "inner", "intersect", "into", "is", "isnull", "join", "leading", "left", "like",
   "limit", "localtime", "localtimestamp", "natural", "new", "not", "notnull", "null", "off",
   "offset", "old", "on", "only", "or", "order", "outer", "overlaps", "placing", "primary",
   "references", "right", "select", "session_user", "set", "similar", "some", "symmetric",
   "table", "then", "to", "trailing", "true", "union", "unique", "user", "using", "verbose",
   "when", "where"]

def isPlain (name : Text) : Bool :=
  let cs := name.toList
  (cs.head?.any fun (c : Letter) => c.isLower || c == '_') &&
    (cs.all fun c => c.isLower || c.isDigit || c == '_' || c == '$') &&
    !(reservedWords.any fun word => name == word)

def identifier (name : Text) : Text :=
  if isPlain name then name else Quoting.quote ⟨'\x22', false⟩ name

/-- How a parameter uses its name. -/
structure Use where
  /-- Its name is the next of a kind, so it may not be shared. -/
  numbered : Bool
  expanding : Bool
  deriving DecidableEq

/-- Why a statement cannot be printed: two of its parameters cannot share their name. -/
inductive Clash
  /-- One of them has a numbered name. -/
  | numbered (name : Text)
  /-- Only one of them stands for a list. -/
  | expanding (name : Text)
  deriving DecidableEq

namespace Clash

def message : Clash → Text
  | .numbered name =>
    "Bind parameter '" ++ name ++ "' conflicts with unique bind parameter of the same name"
  | .expanding name =>
    "Can't reuse bound parameter name '" ++ name ++ "' in both 'expanding' (e.g. within an IN " ++
      "expression) and non-expanding contexts.  If this parameter is to receive a list/array " ++
      "value, set 'expanding=True' on it for expressions that aren't IN, otherwise use a " ++
      "different parameter name."

/-- The clash of two uses of a name. -/
def ofUses (name : Text) (u v : Use) : Option Clash :=
  if u.numbered || v.numbered then some (.numbered name)
  else if u.expanding != v.expanding then some (.expanding name)
  else none

/-- The first clash among some uses behind others, the latest of which comes first. -/
def first (seen : List (Text × Use)) : List (Text × Use) → Option Clash
  | [] => none
  | u :: us => ((seen.lookup u.1).bind (ofUses u.1 u.2)).or (first (u :: seen) us)

end Clash

/-- A printed statement with its parameters. -/
structure Printed where
  sql : Text := ""
  params : Fields := []
  /-- How many names of each kind are taken. -/
  taken : List (Text × Nat) := []
  /-- The names of the parameters from left to right, with their uses. -/
  uses : List (Text × Use) := []

namespace Printed

def next (p : Printed) (seed : Text) : Text :=
  seed ++ "_" ++ toString ((p.taken.lookup seed).getD 0 + 1)

def take (p : Printed) (seed : Text) : Printed :=
  { p with taken := (seed, (p.taken.lookup seed).getD 0 + 1) :: p.taken }

def nameOf (p : Printed) : BindName → Text
  | .given name => name
  | .numbered seed => p.next seed

def write (p : Printed) (s : Text) : Printed :=
  { p with sql := p.sql ++ s }

def takeName (p : Printed) : BindName → Printed
  | .given _ => p
  | .numbered seed => p.take seed

/-- How a parameter stands in a statement. -/
def marker (name : Text) (b : Bind) : Text :=
  if b.expanding then "(__[POSTCOMPILE_" ++ name ++ "])" else ":" ++ name

def add (p : Printed) : Piece → Printed
  | .text s => p.write s
  | .bind name b =>
    let n := p.nameOf name
    { (p.takeName name).write (marker n b) with
      params := p.params.insert n b.value
      uses := p.uses ++ [(n, ⟨name.isNumbered, b.expanding⟩)] }
  | .label seed => (p.take seed).write (identifier (p.next seed))

/-- The first clash among the parameters of a statement, which then cannot be printed after all. -/
def clash (p : Printed) : Option Clash := Clash.first [] p.uses

end Printed

def print (pieces : List Piece) : Printed :=
  pieces.foldl Printed.add {}

namespace Clause

def pieces (clause : Clause) : List Piece :=
  clause.parts.map fun part => match part with
    | .char c => .text (Text.singleton c)
    | .bind name b => .bind (.given name) b

def printed (clause : Clause) : Printed := print clause.pieces

end Clause

def commas (groups : List (List Piece)) : List Piece :=
  [Piece.text ", "].intercalate groups

namespace Base

/-- The name under which the rows of a base statement stand. -/
def rowsName : Text := "s"

def pieces (b : Base) : List Piece :=
  .text " \nFROM (" :: b.body ++ [.text (") AS " ++ rowsName)]

end Base

namespace Projection

def column (name : Text) : Piece := .text (Base.rowsName ++ "." ++ identifier name)

/-- The columns, each in front of those in `names`; one that stands there before takes a number. -/
def columnPieces (seen : List Text) : List Text → List (List Piece)
  | [] => []
  | name :: names =>
    (if seen.contains name then [column name, .text " AS ", .label (name ++ "_")]
      else [column name]) :: columnPieces (name :: seen) names

def pieces : Projection → List Piece
  | .count => [.text "SELECT count(*) AS ", .label "count"]
  | .columns names => .text "SELECT " :: commas (columnPieces [] names)

end Projection

namespace Statement

/-- A condition in its place; one that prints nothing is left out. -/
def conditionPieces : Option Clause → List Piece
  | none => []
  | some clause => if clause.parts.isEmpty then [] else .text " \nWHERE " :: clause.pieces

def orderPieces : List Clause → List Piece
  | [] => []
  | clauses => .text " ORDER BY " :: commas (clauses.map Clause.pieces)

/-- A parameter for a number of rows. -/
def number (n : Int) : Piece := .bind (.numbered "param") ⟨.int n, false⟩

def windowPieces : Option (Int × Int) → List Piece
  | none => []
  | some (limit, offset) => [.text "\n LIMIT ", number limit, .text " OFFSET ", number offset]

def pieces (st : Statement) : List Piece :=
  st.projection.pieces ++ st.base.pieces ++ conditionPieces st.condition ++ orderPieces st.order ++
    windowPieces st.window

def printed (st : Statement) : Printed := print st.pieces

def count (b : Base) (q : Query) : Except ExecutionError Statement := do
  return { projection := .count, base := b, condition := ← Clause.ofQuery q }

/-- The columns of a base statement that some fields name. -/
def known (b : Base) (fields : List Text) : List Text :=
  fields.filter b.columns.contains

/-- The columns that are fetched for some fields: all if none of them is known. -/
def selected (b : Base) (fields : List Text) : List Text :=
  match known b fields with
  | [] => b.columns
  | names => names

/-- The statement that fetches the rows in the window of a query; without a positive limit, all. -/
def fetch (b : Base) (q : Query) (fields : List Text) : Except ExecutionError Statement := do
  return {
    projection := .columns (selected b fields)
    base := b
    condition := ← Clause.ofQuery q
    order := q.sorts.map Clause.ofSortKey
    window := if 0 < q.limit then some (q.limit, q.offset) else none }

def ofCall (b : Base) : Call → Except ExecutionError Statement
  | .count q => count b q
  | .fetch q fields => fetch b q fields

end Statement

end Paging.Sql
