import Paging.Value
import Paging.Text.Blank
import Paging.Text.Utf8
import Paging.Decimal.Reader

/-!
Lenient validation of loosely typed input: a value is taken if it can be read as the wanted type
without loss, and every field that cannot be is reported with its place and the kind of problem.
-/

namespace Paging

inductive PathStep
  | field (name : String)
  | item (index : Nat)
  deriving DecidableEq

inductive ProblemKind
  | intType | intParsing | intFromFloat | intParsingSize | finiteNumber
  | boolType | boolParsing
  | stringType | stringUnicode
  | listType | callableType
  | jsonInvalid | modelType
  deriving DecidableEq

structure Problem where
  path : List PathStep
  kind : ProblemKind
  deriving DecidableEq

namespace ProblemKind

def code : ProblemKind → String
  | .intType => "int_type"
  | .intParsing => "int_parsing"
  | .intFromFloat => "int_from_float"
  | .intParsingSize => "int_parsing_size"
  | .finiteNumber => "finite_number"
  | .boolType => "bool_type"
  | .boolParsing => "bool_parsing"
  | .stringType => "string_type"
  | .stringUnicode => "string_unicode"
  | .listType => "list_type"
  | .callableType => "callable_type"
  | .jsonInvalid => "json_invalid"
  | .modelType => "model_type"

end ProblemKind

namespace Validation

open Decimal

/-- How many problems were found with a value of which sort. -/
def summary (ps : List Problem) (sort : String) : String :=
  let plural := if ps.length = 1 then "" else "s"
  toString ps.length ++ " validation error" ++ plural ++ " for " ++ sort

/-- A digit that may open a number, or a minus. -/
def opensNumber (c : Letter) : Bool := (c.has fun c => '1' ≤ c && c ≤ '9') || c == '-'

/-- Drop the zeros in front of a number, and the underscores among them. A zero stays in front of a
point, and of nothing but zeros and underscores the last character stays. -/
def dropZeros? (cs : List Letter) : Option (List Letter) :=
  match cs with
  | '0' :: r =>
    match r.dropWhile fun (c : Letter) => c == '0' || c == '_' with
    | [] => some (cs.drop (cs.length - 1))
    | '.' :: fraction => some (cs.drop (cs.length - fraction.length - 2))
    | c :: rest => if opensNumber c then some (c :: rest) else none
  | c :: r => if opensNumber c then some (c :: r) else none
  | [] => none

/-- Drop a fraction that consists of zeros, at least one. -/
def dropFraction (cs : List Letter) : List Letter :=
  let whole := cs.takeWhile (· != ('.' : Letter))
  let fraction := cs.drop (whole.length + 1)
  if !fraction.isEmpty && fraction.all (· == '0') then whole else cs

/-- Drop the underscores if each stands alone and none at an end. -/
def dropUnderscores (cs : List Letter) : List Letter :=
  let misplaced := cs.head? == some ('_' : Letter) || cs.getLast? == some ('_' : Letter) ||
    (cs.zip (cs.drop 1)).contains ('_', '_')
  if misplaced then cs else cs.filter (· != '_')

def dropPlus : List Letter → List Letter
  | '+' :: r => r
  | cs => cs

/-- What is left of a text when all that may be around a number is gone. -/
def bareNumber? (s : Text) : Option (List Letter) :=
  (dropZeros? (dropPlus (Text.trimBy Text.isWhiteSpace s.toList))).map fun cs =>
    dropUnderscores (dropFraction cs)

/-- The number of a minus, if there is one, and digits. -/
def readBare (cs : List Letter) : Except ProblemKind Int :=
  let negative := cs.head? == some ('-' : Letter)
  let body := if negative then cs.drop 1 else cs
  let digits := body.takeWhile Letter.isDigit
  if maxDigits < digits.length then .error .intParsingSize
  else if digits.isEmpty || digits.length < body.length then .error .intParsing
  else
    let n := ofDigits (digits.map fun c => c.toNat - 48)
    .ok (if negative then -(n : Int) else n)

/-- The whole number of a text: white space around it, a sign, zeros in front, single underscores
and a fraction of zeros are allowed. -/
def textToInt (s : Text) : Except ProblemKind Int :=
  match bareNumber? s with
  | some cs => readBare cs
  | none => .error .intParsing

/-- Does a number fit into 64 bits with a sign? -/
def fits64 (n : Int) : Bool := -(Int.pow 2 63) ≤ n && n < Int.pow 2 63

/-- A float stands for the whole number that it equals, within 64 bits. -/
def floatToInt (x : Binary64) : Except ProblemKind Int :=
  match x with
  | .finite _ _ =>
    match x.toInt? with
    | some n => if n.natAbs < Nat.pow 2 63 then .ok n else .error .intParsingSize
    | none => .error .intFromFloat
  | _ => .error .finiteNumber

def toInt (v : Value) : Except ProblemKind Int :=
  match v with
  | .bool b => .ok (if b then 1 else 0)
  | .int n => .ok n
  | .float x => floatToInt x
  | .text s => textToInt s
  | .bytes b =>
    match Text.Utf8.decode b with
    | .ok s => textToInt s
    | .error _ => .error .intParsing
  | _ => .error .intType

def noWords : List Text := ["0", "off", "f", "false", "n", "no"]

def yesWords : List Text := ["1", "on", "t", "true", "y", "yes"]

def textToBool (s : Text) : Except ProblemKind Bool :=
  let s := Text.ofList (s.toList.map Letter.toLower)
  if yesWords.contains s then .ok true
  else if noWords.contains s then .ok false
  else .error .boolParsing

def toBool (v : Value) : Except ProblemKind Bool :=
  match v with
  | .bool b => .ok b
  | .int n =>
    if n = 0 then .ok false
    else if n = 1 then .ok true
    else if fits64 n then .error .boolParsing
    else .error .boolType
  | .float x =>
    match floatToInt x with
    | .ok 0 => .ok false
    | .ok 1 => .ok true
    | .ok _ => .error .boolParsing
    | .error _ => .error .boolType
  | .text s => textToBool s
  | .bytes b =>
    match Text.Utf8.decode b with
    | .ok s => textToBool s
    | .error _ => .error .boolParsing
  | _ => .error .boolType

def toText (v : Value) : Except ProblemKind String :=
  match v with
  | .text s => s.string?.elim (.error .stringUnicode) .ok
  | .bytes b =>
    match Text.Utf8.decode b with
    | .ok s => .ok s
    | .error _ => .error .stringUnicode
  | _ => .error .stringType

def toList (v : Value) : Except ProblemKind (List Value) :=
  match v.elements? with
  | some xs => .ok xs
  | none => .error .listType

/-- What may also be missing. -/
def orNull {α : Type} (read : Value → Except ProblemKind α) (v : Value) :
    Except ProblemKind (Option α) :=
  match v with
  | .null => .ok none
  | v => (read v).map some

/-- A field that was read, or the problems with it. -/
abbrev Checked (α : Type) := Except (List Problem) α

def field {α : Type} (fields : Fields) (name : String) (default_ : α)
    (read : Value → Except ProblemKind α) : Checked α :=
  match fields.get? name with
  | none => .ok default_
  | some v => (read v).mapError fun kind => [⟨[.field name], kind⟩]

def textProblems (name : String) (index : Nat) : List Value → List Problem
  | [] => []
  | v :: vs =>
    (match toText v with
      | .ok _ => []
      | .error kind => [⟨[.field name, .item index], kind⟩]) ++ textProblems name (index + 1) vs

def textsField (fields : Fields) (name : String) : Checked (List String) :=
  match fields.get? name with
  | none => .ok []
  | some v =>
    match toList v with
    | .error kind => .error [⟨[.field name], kind⟩]
    | .ok xs =>
      match textProblems name 0 xs with
      | [] => .ok (xs.filterMap fun x => (toText x).toOption)
      | problems => .error problems

def problems {α : Type} : Checked α → List Problem
  | .ok _ => []
  | .error ps => ps

end Validation

end Paging
