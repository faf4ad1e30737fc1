import Paging.Decimal.Binary64
import Paging.Text.Blank
import Paging.Text.Digit

/-!
Reading whole numbers from free text: white space around the number is dropped, the
digits may be those of any script, and a single underscore may stand between two digits.
-/

namespace Paging.Decimal

open Paging.Text

def ofDigits (ds : List Nat) : Nat :=
  ds.foldl (fun n d => 10 * n + d) 0

/-- Digits with single underscores between them. -/
def groupedDigits : List Letter → Option (List Nat)
  | [] => none
  | [c] => (digitValue? c).map fun d => [d]
  | c :: '_' :: r => do
    let d ← digitValue? c
    let ds ← groupedDigits r
    return d :: ds
  | c :: r => do
    let d ← digitValue? c
    let ds ← groupedDigits r
    return d :: ds

/-- A sign, if there is one, and what follows it. -/
def signed : List Letter → Bool × List Letter
  | '-' :: r => (true, r)
  | '+' :: r => (false, r)
  | r => (false, r)

/-- A whole number from text has at most this many digits. -/
def maxDigits : Nat := 4300

def readInt? (s : Text) : Option Int := do
  let (negative, cs) := signed (trimBy isWhiteSpace s.toList)
  let ds ← groupedDigits cs
  if ds.length ≤ maxDigits then
    return (if negative then -(ofDigits ds : Int) else ofDigits ds)
  else none

end Paging.Decimal
