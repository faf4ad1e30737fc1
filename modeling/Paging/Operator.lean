import Paging.Text.Split

/-!
The vocabulary of filters: the comparison operators that reach a predicate, the words that stand
for a pattern match, and the connectors between comparisons. Whatever a client writes is reduced to
the operator alphabet before it is looked up.
-/

namespace Paging

inductive FilterOperator
  | eq | ne | neAnsi | gt | lt | ge | le
  | is | isNot
  | in_ | notIn | between | notBetween
  | like | notLike | ilike | notIlike
  deriving DecidableEq

namespace FilterOperator

def all : List FilterOperator :=
  [.eq, .ne, .neAnsi, .gt, .lt, .ge, .le, .is, .isNot, .in_, .notIn, .between, .notBetween,
   .like, .notLike, .ilike, .notIlike]

def text : FilterOperator → Text
  | .eq => "="
  | .ne => "!="
  | .neAnsi => "<>"
  | .gt => ">"
  | .lt => "<"
  | .ge => ">="
  | .le => "<="
  | .is => "IS"
  | .isNot => "IS NOT"
  | .in_ => "IN"
  | .notIn => "NOT IN"
  | .between => "BETWEEN"
  | .notBetween => "NOT BETWEEN"
  | .like => "LIKE"
  | .notLike => "NOT LIKE"
  | .ilike => "ILIKE"
  | .notIlike => "NOT ILIKE"

def ofText? (s : Text) : Option FilterOperator :=
  all.find? fun o => o.text == s

@[simp] theorem ofText?_text (o : FilterOperator) : ofText? o.text = some o := by
  cases o <;> decide

/-- How an operator treats its value. -/
inductive Family
  | plain | nullCheck | set | range | pattern
  deriving DecidableEq

def family : FilterOperator → Family
  | .is | .isNot => .nullCheck
  | .in_ | .notIn => .set
  | .between | .notBetween => .range
  | .like | .notLike | .ilike | .notIlike => .pattern
  | _ => .plain

end FilterOperator

inductive Connector
  | and | or
  deriving DecidableEq

namespace Connector

def text : Connector → Text
  | .and => "AND"
  | .or => "OR"

def ofText? (s : Text) : Option Connector :=
  if s = "AND" then some .and else if s = "OR" then some .or else none

@[simp] theorem ofText?_text (c : Connector) : ofText? c.text = some c := by
  cases c <;> decide

end Connector

/-- A word for a pattern match: its operator, and on which sides any text may stand. -/
structure LikeAlias where
  operator : FilterOperator
  leading : Bool
  trailing : Bool
  deriving DecidableEq

namespace LikeAlias

/-- The words in capitals. `MATCH` alone has no open side. -/
def table : List (Text × LikeAlias) :=
  [("LIKE", ⟨.like, true, true⟩), ("NOT LIKE", ⟨.notLike, true, true⟩),
   ("ILIKE", ⟨.ilike, true, true⟩), ("NOT ILIKE", ⟨.notIlike, true, true⟩),
   ("CONTAINS", ⟨.like, true, true⟩), ("ICONTAINS", ⟨.ilike, true, true⟩),
   ("NOT CONTAINS", ⟨.notLike, true, true⟩),
   ("STARTSWITH", ⟨.like, false, true⟩), ("ISTARTSWITH", ⟨.ilike, false, true⟩),
   ("NOT STARTSWITH", ⟨.notLike, false, true⟩),
   ("ENDSWITH", ⟨.like, true, false⟩), ("IENDSWITH", ⟨.ilike, true, false⟩),
   ("NOT ENDSWITH", ⟨.notLike, true, false⟩),
   ("MATCH", ⟨.like, false, false⟩)]

def ofText? (s : Text) : Option LikeAlias :=
  table.lookup s

end LikeAlias

/-- What a client may ask of a column: a comparison, or a pattern match by one of its words. -/
inductive Spelling
  | comparison (o : FilterOperator)
  | pattern (word : Text) (alias_ : LikeAlias)
  deriving DecidableEq

namespace Spelling

def codes : List (Text × FilterOperator) :=
  [("EQ", .eq), ("NE", .ne), ("NEQ", .ne), ("GT", .gt), ("GTE", .ge), ("GE", .ge), ("LT", .lt),
   ("LTE", .le), ("LE", .le)]

/-- Letters, the operator signs and the space. -/
def inAlphabet (c : Letter) : Bool :=
  c.isAlpha || ("=<>-+^/*%&! " : Text).toList.contains c

/-- Fold each run of spaces to one; `inRun` tells that a space went before. -/
def foldSpaces : Bool → List Letter → List Letter
  | _, [] => []
  | inRun, c :: r =>
    if c = ' ' then if inRun then foldSpaces true r else ' ' :: foldSpaces true r
    else c :: foldSpaces false r

/-- The operator alphabet's part of a text, in capitals, with single spaces inside and none at the
ends. -/
def sanitize (raw : Text) : Text :=
  let cs := (raw.toList.filter inAlphabet).map Letter.toUpper
  let cs := foldSpaces true cs
  Text.ofList (cs.reverse.dropWhile (· == (' ' : Letter))).reverse

def ofText? (s : Text) : Option Spelling :=
  match codes.lookup s with
  | some o => some (.comparison o)
  | none =>
    match LikeAlias.ofText? s with
    | some a => some (.pattern s a)
    | none => (FilterOperator.ofText? s).map .comparison

def read? (raw : Text) : Option Spelling :=
  ofText? (sanitize raw)

def text : Spelling → Text
  | .comparison o => o.text
  | .pattern word _ => word

end Spelling

namespace Connector

def read? (raw : Text) : Option Connector :=
  ofText? (Spelling.sanitize raw)

end Connector

end Paging
