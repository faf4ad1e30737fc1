import Paging.Text.Split
import Paging.Text.Utf8
import Paging.Value
import Paging.Json.Reader

/-!
Query strings: `name=value` pairs separated by `&`, with a plus for a space and bytes of UTF-8 as
percent sequences. A percent sign that starts no sequence stands for itself.
-/

namespace Paging.Http

/-- The bytes that ASCII characters with percent sequences stand for. -/
def percentBytes : List Letter → List UInt8
  | '%' :: a :: b :: r =>
    match Json.hexValue? a, Json.hexValue? b with
    | some x, some y => UInt8.ofNat (16 * x + y) :: percentBytes r
    | _, _ => 37 :: percentBytes (a :: b :: r)
  | c :: r => UInt8.ofNat c.toNat :: percentBytes r
  | [] => []

def isAscii (c : Letter) : Bool := c.toNat < 128

/-- Decode the percent sequences in each run of ASCII; `run` holds the run so far, the last first.
-/
def decodeRuns (run : List Letter) : List Letter → List Letter
  | [] => letters (Text.Utf8.decodeReplacing (percentBytes run.reverse))
  | c :: r =>
    if isAscii c then decodeRuns (c :: run) r
    else letters (Text.Utf8.decodeReplacing (percentBytes run.reverse)) ++ c :: decodeRuns [] r

def decodePart (s : List Letter) : Text :=
  Text.ofList (decodeRuns [] (s.map fun (c : Letter) => if c = '+' then ' ' else c))

/-- A pair of a query string; without an equals sign the value is empty. -/
def pairOf (s : List Letter) : Text × Text :=
  let name := s.takeWhile (· ≠ ('=' : Letter))
  (decodePart name, decodePart (s.drop (name.length + 1)))

/-- The pairs of a query string in order. -/
def pairs (queryString : Text) : List (Text × Text) :=
  ((Text.splitChars '&' queryString.toList).filter fun s => !s.isEmpty).map pairOf

def firstValues (ps : List (Text × Text)) : List (Text × Text) :=
  ps.foldl (fun seen p => if (seen.lookup p.1).isSome then seen else seen ++ [p]) []

def parameters (queryString : Text) : Fields :=
  (firstValues (pairs queryString)).map fun p => (p.1, .text p.2)

end Paging.Http
