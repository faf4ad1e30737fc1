import Paging.Executor
import Paging.Text.Word

/-!
Clauses: pieces of SQL in which `:name` stands for a parameter and `\:` for a colon. The condition
of a query becomes a clause whose parameters are named `p0`, `p1` and so on.
-/

namespace Paging.Sql

/-- The value of a parameter. A list is written out when the statement is run. -/
structure Bind where
  value : Value
  expanding : Bool := false

namespace Bind

def ofValue (v : Value) : Bind :=
  match v.elements? with
  | some xs => ⟨.list xs, true⟩
  | none => ⟨v, false⟩

end Bind

structure Clause where
  text : Text
  binds : List (Text × Bind) := []

inductive Part
  | char (c : Letter)
  | bind (name : Text) (b : Bind)

namespace Clause

/-- May this stand in the name of a parameter, where a statement is printed? -/
def isNameChar (c : Letter) : Bool := Text.isWord c || c == '$'

def mayDeclare : Option Letter → Bool
  | some c => !(c == ':' || c == '\\' || Text.isWord c)
  | none => true

def mayPrint (before : Option Letter) : Bool := mayDeclare before && before != some ('$' : Letter)

/-- The name that is declared behind a colon: the word there, without its last character if another
colon follows it. -/
def declaredName? (r : List Letter) : Option Text :=
  let word := r.takeWhile Text.isWord
  let name := if (r.drop word.length).head? = some (':' : Letter) then word.dropLast else word
  if name.isEmpty then none else some (Text.ofList name)

/-- The names that a text declares, read behind `before`. -/
def declared (before : Option Letter) : List Letter → List Text
  | [] => []
  | c :: r =>
    (if c = ':' ∧ mayDeclare before then (declaredName? r).toList else []) ++ declared (some c) r

def printedName? (r : List Letter) : Option (List Letter) :=
  let name := r.takeWhile isNameChar
  if name.isEmpty || (r.drop name.length).head? = some (':' : Letter) then none else some name

/-- Does a backslash in front of this escape a colon? -/
def escapesColon : List Letter → Bool
  | ':' :: r => (r.dropWhile isNameChar).head? != some (':' : Letter)
  | _ => false

/-- The parameter of a name, if it is declared. A declared name without a value stands for null. -/
def bind? (clause : Clause) (name : Text) : Option Bind :=
  match clause.binds.lookup name with
  | some b => some b
  | none =>
    if (declared none clause.text.toList).contains name then some ⟨.null, false⟩ else none

/-- The parts of a text that is read behind `before`; the first `skip` characters belong to a name
that is already printed. -/
def partsFrom (clause : Clause) : Nat → Option Letter → List Letter → List Part
  | _, _, [] => []
  | skip + 1, _, c :: r => partsFrom clause skip (some c) r
  | 0, before, c :: r =>
    if c = ':' ∧ mayPrint before then
      match (printedName? r).bind fun name =>
          (clause.bind? (Text.ofList name)).map fun b => (name, b) with
      | some (name, b) =>
        .bind (Text.ofList name) b :: partsFrom clause name.length (some c) r
      | none => .char c :: partsFrom clause 0 (some c) r
    else if c = '\\' ∧ escapesColon r then partsFrom clause 0 (some c) r
    else .char c :: partsFrom clause 0 (some c) r

def parts (clause : Clause) : List Part :=
  clause.partsFrom 0 none clause.text.toList

def escapeColons (token : Text) : Text :=
  Text.ofList (token.toList.flatMap fun (c : Letter) => if c = ':' then ['\\', ':'] else [c])

def paramName (index : Nat) : Text := "p" ++ toString index

/-- Name the placeholders of some tokens, the first of them `index`, and give them the parameters.
-/
def place (index : Nat) : List Text → List Value →
    Except ExecutionError (List Text × List (Text × Bind))
  | [], _ => .ok ([], [])
  | token :: tokens, params =>
    if token = Predicate.placeholder then
      match params with
      | [] => .error .missingParameter
      | v :: vs =>
        (place (index + 1) tokens vs).map fun (texts, binds) =>
          ((":" ++ paramName index) :: texts, (paramName index, .ofValue v) :: binds)
    else
      (place index tokens params).map fun (texts, binds) => (escapeColons token :: texts, binds)

/-- The condition of a query; none without tokens. -/
def ofQuery (q : Query) : Except ExecutionError (Option Clause) :=
  if q.wheres.isEmpty then .ok none
  else (place 0 q.wheres q.params).map fun (texts, binds) =>
    some ⟨Text.intercalate " " texts, binds⟩

/-- A sort key as a clause. Its column is written as it is. -/
def ofSortKey (s : SortKey) : Clause :=
  ⟨s.column ++ " " ++ s.direction.text, []⟩

end Clause

end Paging.Sql
