import Paging.Text

/-!
Blank characters, the trimming they drive and the folding of blank runs.
-/

namespace Paging.Text

/-- Blank: tab to carriage return, the separators 28 to 31, and the spaces and line breaks of the
Unicode standard. -/
def isBlank (c : Letter) : Bool :=
  let n := c.toNat
  (9 ≤ n && n ≤ 13) || (28 ≤ n && n ≤ 32) || n == 0x85 || n == 0xa0 || n == 0x1680 ||
    (0x2000 ≤ n && n ≤ 0x200a) || n == 0x2028 || n == 0x2029 || n == 0x202f || n == 0x205f ||
    n == 0x3000

/-- White space of the Unicode standard: the blanks less the separators 28 to 31. -/
def isWhiteSpace (c : Letter) : Bool :=
  isBlank c && !(28 ≤ c.toNat && c.toNat ≤ 31)

/-- Drop what `p` holds of at both ends. -/
def trimBy {α : Type} (p : α → Bool) (s : List α) : List α :=
  ((s.dropWhile p).reverse.dropWhile p).reverse

def strip (s : Text) : Text :=
  Text.ofList (trimBy isBlank s.toList)

def allBlank (s : Text) : Bool :=
  s.toList.all isBlank

/-- White space of a byte string: the space and tab to carriage return. -/
def isBlankByte (b : UInt8) : Bool :=
  b == 32 || (9 ≤ b && b ≤ 13)

/-- Replace each run of blanks by one copy of `mark`; `inRun` tells that a run is already marked. -/
def foldRuns (mark : Letter) : Bool → List Letter → List Letter
  | _, [] => []
  | inRun, c :: r =>
    if isBlank c then
      if inRun then foldRuns mark true r else mark :: foldRuns mark true r
    else c :: foldRuns mark false r

end Paging.Text
