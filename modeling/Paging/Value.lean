import Paging.Text
import Paging.Decimal.Binary64

/-!
Values that clients send and rows hold: scalars, byte strings, lists, tuples and objects. The fields
of an object keep the order in which they first came.
-/

namespace Paging

open Decimal

inductive Value
  | null
  | bool (b : Bool)
  | int (n : Int)
  | float (x : Binary64)
  | text (s : Text)
  | bytes (b : List UInt8)
  | list (xs : List Value)
  | tuple (xs : List Value)
  | object (fields : List (Text × Value))

/-- Named values in the order of the names' first occurrence. -/
abbrev Fields := List (Text × Value)

namespace Fields

def get? (fields : Fields) (name : Text) : Option Value :=
  fields.lookup name

/-- Set the value of a name: in place if it is there, at the end if it is new. -/
def insert (name : Text) (v : Value) : Fields → Fields
  | [] => [(name, v)]
  | f :: r => if f.1 = name then (name, v) :: r else f :: insert name v r

@[simp] theorem get?_insert_self (name : Text) (v : Value) (fields : Fields) :
    (insert name v fields).get? name = some v := by
  induction fields with
  | nil => simp [insert, get?]
  | cons f r ih =>
    obtain ⟨k, w⟩ := f
    by_cases h : k = name
    · simp [insert, get?, h]
    · have h' : (name == k) = false := by simpa using fun e => h e.symm
      simpa [insert, get?, h, h', List.lookup_cons] using ih

end Fields

namespace Value

/-- The value is absent, zero or empty. -/
def isEmpty : Value → Bool
  | .null => true
  | .bool b => !b
  | .int n => n == 0
  | .float x => x.isZero
  | .text s => s.isEmpty
  | .bytes b => b.isEmpty
  | .list xs => xs.isEmpty
  | .tuple xs => xs.isEmpty
  | .object fields => fields.isEmpty

def elements? : Value → Option (List Value)
  | .list xs => some xs
  | .tuple xs => some xs
  | _ => none

def kind : Value → String
  | .null => "NoneType"
  | .bool _ => "bool"
  | .int _ => "int"
  | .float _ => "float"
  | .text _ => "str"
  | .bytes _ => "bytes"
  | .list _ => "list"
  | .tuple _ => "tuple"
  | .object _ => "dict"

mutual

/-- All texts in the value are whole. -/
def isWhole : Value → Bool
  | .text s => s.isWhole
  | .list xs => isWholeList xs
  | .tuple xs => isWholeList xs
  | .object fields => isWholeFields fields
  | _ => true

def isWholeList : List Value → Bool
  | [] => true
  | x :: xs => isWhole x && isWholeList xs

def isWholeFields : List (Text × Value) → Bool
  | [] => true
  | (k, x) :: r => k.isWhole && isWhole x && isWholeFields r

end

end Value

/-- A row of a database. Its texts are whole. -/
structure Row where
  value : Value
  whole : value.isWhole = true

def Row.ofValue? (v : Value) : Option Row :=
  if h : v.isWhole = true then some ⟨v, h⟩ else none

end Paging
