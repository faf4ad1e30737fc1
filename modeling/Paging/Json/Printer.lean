import Paging.Value.Text

/-!
Writing JSON without white space. A `Form` fixes what the two written forms of the library differ
in: which characters of a string are escaped, how a float is written, and whether the fields of an
object are sorted by name.
-/

namespace Paging.Json

open Decimal

structure Form where
  /-- A character of a string, the quote and the backslash apart. -/
  character : Letter → List Letter
  float : Binary64 → String
  sorted : Bool

def unitEscape (n : Nat) : List Letter :=
  '\\' :: 'u' :: letters (Text.hex 4 n)

/-- The short escape of a control character, the long one if it has none. -/
def controlEscape (c : Letter) : List Letter :=
  if c = '\n' then ['\\', 'n']
  else if c = '\r' then ['\\', 'r']
  else if c = '\t' then ['\\', 't']
  else if c = '\x08' then ['\\', 'b']
  else if c = '\x0c' then ['\\', 'f']
  else unitEscape c.toNat

/-- Everything but the printable characters of ASCII is escaped, beyond the first plane as a pair of
code units. -/
def asciiOnly (c : Letter) : List Letter :=
  let n := c.toNat
  if 32 ≤ n ∧ n < 127 then [c]
  else if n < 32 then controlEscape c
  else if n < 0x10000 then unitEscape n
  else unitEscape (0xd800 + (n - 0x10000) / 1024) ++ unitEscape (0xdc00 + (n - 0x10000) % 1024)

def controlsOnly (c : Letter) : List Letter :=
  if c.toNat < 32 then controlEscape c else [c]

namespace Form

def stringChar (f : Form) (c : Letter) : List Letter :=
  if c = '\x22' ∨ c = '\\' then ['\\', c] else f.character c

def stringText (f : Form) (s : Text) : List Letter :=
  ('\x22' : Letter) :: s.toList.flatMap f.stringChar ++ [('\x22' : Letter)]

/-- Sort fields by name, in the order of code points. -/
def arrange {α : Type} (f : Form) (fields : List (Text × α)) : List (Text × α) :=
  if f.sorted then fields.mergeSort fun a b => !(decide (b.1 < a.1)) else fields

def commas (pieces : List (List Letter)) : List Letter :=
  [(',' : Letter)].intercalate pieces

mutual

/-- The written form of a value. Tuples are written as lists, byte strings as their quoted text. -/
def chars (f : Form) : Value → List Letter
  | .null => letters "null".toList
  | .bool b => letters (if b then "true" else "false").toList
  | .int n => letters (toString n).toList
  | .float x => letters (f.float x).toList
  | .text s => f.stringText s
  | .bytes b => f.stringText (Text.quotedBytes b)
  | .list xs => ('[' : Letter) :: commas (listChars f xs) ++ [(']' : Letter)]
  | .tuple xs => ('[' : Letter) :: commas (listChars f xs) ++ [(']' : Letter)]
  | .object fields =>
    let members := f.arrange (fieldChars f fields)
    ('\x7b' : Letter) :: commas (members.map fun m => f.stringText m.1 ++ (':' : Letter) :: m.2) ++
      [('\x7d' : Letter)]

def listChars (f : Form) : List Value → List (List Letter)
  | [] => []
  | x :: xs => chars f x :: listChars f xs

def fieldChars (f : Form) : List (Text × Value) → List (Text × List Letter)
  | [] => []
  | (k, x) :: r => (k, chars f x) :: fieldChars f r

end

def render (f : Form) (v : Value) : Text :=
  Text.ofList (f.chars v)

end Form

def canonicalFloat : Style :=
  { Value.floatStyle with nan := "NaN", infinity := "Infinity" }

/-- Positional from `0.00001` on, an exponent without padding, and what is not finite as null. -/
def storedFloat : Binary64 → String
  | .finite negative x =>
    Style.render { lowest := -5, highest := 15, exponentWidth := 1, nan := "", infinity := "" }
      (.finite negative x)
  | _ => "null"

/-- The form that cache keys are computed from: one text for all orders of an object's fields, and
ASCII only. -/
def canonical : Form where
  character := asciiOnly
  float := canonicalFloat.render
  sorted := true

def stored : Form where
  character := controlsOnly
  float := storedFloat
  sorted := false

end Paging.Json
