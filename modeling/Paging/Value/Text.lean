import Paging.Value
import Paging.Decimal.Style
import Paging.Text.Quoted

/-!
Values as text. `quoted` is the form in which a value stands inside another or in a message,
`display` shows a text without quotes, and `plain` is the form that a client would have typed.
-/

namespace Paging
namespace Value

open Decimal

/-- Positional from `0.0001` up to sixteen digits; an exponent has two digits or more. -/
def floatStyle : Style :=
  { lowest := -4, highest := 15, exponentWidth := 2, nan := "nan", infinity := "inf" }

def separated (pieces : List (List Letter)) : List Letter :=
  [(',' : Letter), ' '].intercalate pieces

/-- A tuple of one keeps a comma behind its element. -/
def tupleBody (pieces : List (List Letter)) : List Letter :=
  separated pieces ++ if pieces.length = 1 then [(',' : Letter)] else []

mutual

/-- The form of a value inside another. -/
def quotedChars : Value → List Letter
  | .null => letters "None".toList
  | .bool b => letters (if b then "True" else "False").toList
  | .int n => letters (toString n).toList
  | .float x => letters (floatStyle.render x).toList
  | .text s => (Text.quoted s).toList
  | .bytes b => letters (Text.quotedBytes b).toList
  | .list xs => ('[' : Letter) :: separated (quotedList xs) ++ [(']' : Letter)]
  | .tuple xs => ('(' : Letter) :: tupleBody (quotedList xs) ++ [(')' : Letter)]
  | .object fields => ('\x7b' : Letter) :: separated (quotedFields fields) ++ [('\x7d' : Letter)]

def quotedList : List Value → List (List Letter)
  | [] => []
  | x :: xs => quotedChars x :: quotedList xs

def quotedFields : List (Text × Value) → List (List Letter)
  | [] => []
  | (k, x) :: r =>
    ((Text.quoted k).toList ++ [(':' : Letter), ' '] ++ quotedChars x) :: quotedFields r

end

def quoted (v : Value) : Text :=
  Text.ofList v.quotedChars

/-- A text as it is, any other value quoted. -/
def display : Value → Text
  | .text s => s
  | v => v.quoted

/-- Whole numbers from here on keep their exponent. -/
def wholeLimit : Nat := Nat.pow 10 21

/-- The whole number that a float is written as. -/
def wholeFloat? (x : Binary64) : Option Int :=
  x.toInt?.filter fun n => n.natAbs < wholeLimit

/-- A float as a client would type it: a whole number below the limit without a fraction. -/
def plainFloat (x : Binary64) : String :=
  match wholeFloat? x with
  | some n => toString n
  | none => floatStyle.render x

def plain : Value → Text
  | .null => ""
  | .bool b => if b then "true" else "false"
  | .float x => plainFloat x
  | v => v.display

end Value
end Paging
