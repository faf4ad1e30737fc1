import Paging.Text.Printable

/-!
The quoted form of texts and byte strings, as it stands in messages: single quotes, unless the text
holds a single quote and no double quote; a backslash, the quote in use and what does not show are
escaped.
-/

namespace Paging.Text

def hexDigit (n : Nat) : Char :=
  Char.ofNat (if n < 10 then 48 + n else 87 + n)

/-- The last `width` digits of `n` to base 16, in lower case. -/
def hex : Nat → Nat → List Char
  | 0, _ => []
  | width + 1, n => hex width (n / 16) ++ [hexDigit (n % 16)]

def singleQuote : Char := Char.ofNat 39

def doubleQuote : Char := Char.ofNat 34

/-- The quote that needs the fewer escapes: double only where single quotes occur and double do
not. -/
def quoteFor (s : List Letter) : Char :=
  if s.contains singleQuote && !s.contains doubleQuote then doubleQuote else singleQuote

/-- One character of a text between the quotes `q`. -/
def quotedChar (q c : Letter) : List Letter :=
  if c = q ∨ c = '\\' then ['\\', c]
  else if c = '\n' then ['\\', 'n']
  else if c = '\r' then ['\\', 'r']
  else if c = '\t' then ['\\', 't']
  else if isPrintable c then [c]
  else if c.toNat < 0x100 then '\\' :: 'x' :: letters (hex 2 c.toNat)
  else if c.toNat < 0x10000 then '\\' :: 'u' :: letters (hex 4 c.toNat)
  else '\\' :: 'U' :: letters (hex 8 c.toNat)

def quoted (s : Text) : Text :=
  let cs := s.toList
  let q : Letter := quoteFor cs
  Text.ofList (q :: cs.flatMap (quotedChar q) ++ [q])

/-- One byte of a byte string between the quotes `q`; above 126 and below 32 all are escaped. -/
def quotedByte (q : Char) (b : UInt8) : List Char :=
  let c := Char.ofNat b.toNat
  if c = q ∨ c = '\\' then ['\\', c]
  else if c = '\n' then ['\\', 'n']
  else if c = '\r' then ['\\', 'r']
  else if c = '\t' then ['\\', 't']
  else if 32 ≤ b ∧ b < 127 then [c]
  else '\\' :: 'x' :: hex 2 b.toNat

def quotedBytes (bs : List UInt8) : String :=
  let q := quoteFor (bs.map fun b => Letter.ofNat b.toNat)
  String.ofList ('b' :: q :: bs.flatMap (quotedByte q) ++ [q])

end Paging.Text
