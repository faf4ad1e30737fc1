import Paging.Text
import Paging.Text.Case.Table
import Paging.Text.Range

/-!
Lower, upper and title case. A capital sigma at the end of a word becomes the final small sigma; all
other characters map on their own. Below 128 the maps are those of ASCII.
-/

namespace Paging.Text
namespace Case

/-- The single-character image of a code point, itself if no run covers it. -/
def shifted (runs : List Run) (n : Nat) : Nat :=
  match runs.find? fun r => r.first ≤ n && n ≤ r.last && (n - r.first) % r.step == 0 with
  | some r => (n + r.shift).toNat
  | none => n

/-- The image of a code point above ASCII. -/
def image (runs : List Run) (wide : List (Nat × List Nat)) (n : Nat) : List Letter :=
  match wide.find? fun w => w.1 == n with
  | some w => w.2.map Letter.ofNat
  | none => [Letter.ofNat (shifted runs n)]

def lowerChar (c : Letter) : List Letter :=
  if c.toNat < 128 then [c.toLower] else image lowerRuns lowerWide c.toNat

def upperChar (c : Letter) : List Letter :=
  if c.toNat < 128 then [c.toUpper] else image upperRuns upperWide c.toNat

def titleChar (c : Letter) : List Letter :=
  if c.toNat < 128 then [c.toUpper] else image titleRuns titleWide c.toNat

def isCased (c : Letter) : Bool :=
  if c.toNat < 128 then c.isAlpha else inRanges casedRanges c.toNat

/-- Skipped when the neighbours of a sigma are looked for. -/
def isIgnorable (c : Letter) : Bool :=
  inRanges ignorableRanges c.toNat

/-- Is the first character that is not skipped a cased one? -/
def meetsCased (s : List Letter) : Bool :=
  match s.dropWhile isIgnorable with
  | [] => false
  | c :: _ => isCased c

def capitalSigma : Letter := Letter.ofNat 0x3a3

/-- Lower case of one character between what stands `before` it, nearest first, and `after` it. -/
def lowerIn (before : List Letter) (c : Letter) (after : List Letter) : List Letter :=
  if c = capitalSigma then
    if meetsCased before && !meetsCased after then [Letter.ofNat 0x3c2] else [Letter.ofNat 0x3c3]
  else lowerChar c

def lowerFrom (before : List Letter) : List Letter → List Letter
  | [] => []
  | c :: r => lowerIn before c r ++ lowerFrom (c :: before) r

/-- Title case of the first letter after a character without case, lower case of the others. -/
def titleFrom (before : List Letter) (inWord : Bool) : List Letter → List Letter
  | [] => []
  | c :: r =>
    (if inWord then lowerIn before c r else titleChar c) ++ titleFrom (c :: before) (isCased c) r

end Case

def lower (s : Text) : Text :=
  Text.ofList (Case.lowerFrom [] s.toList)

def upper (s : Text) : Text :=
  Text.ofList (s.toList.flatMap Case.upperChar)

def title (s : Text) : Text :=
  Text.ofList (Case.titleFrom [] false s.toList)

end Paging.Text
