import Paging.Text.Blank

/-!
Patterns of `LIKE`. A text is escaped so that neither the wildcard `%` nor the escape itself acts in
it; blank runs may be folded to the wildcard, and an open side gets one.
-/

namespace Paging.Like

def wildcard : Letter := '%'

/-- Replace every occurrence of `old`, from the left and without overlap. `fuel` bounds the
length. -/
def replaceFrom (old new : List Letter) : Nat → List Letter → List Letter
  | 0, s => s
  | _, [] => []
  | fuel + 1, c :: r =>
    if old.isPrefixOf (c :: r) then new ++ replaceFrom old new fuel ((c :: r).drop old.length)
    else c :: replaceFrom old new fuel r

/-- Replace every occurrence of a text that is not empty. -/
def replace (old new s : List Letter) : List Letter :=
  replaceFrom old new s.length s

/-- Write the escape twice and put it before each wildcard. Without an escape nothing is escaped. -/
def escape (mark s : Text) : Text :=
  if mark.isEmpty then s
  else
    let m := mark.toList
    Text.ofList (replace [wildcard] (m ++ [wildcard]) (replace m (m ++ m) s.toList))

/-- Fold each run of blanks to one wildcard. -/
def foldBlanks (s : Text) : Text :=
  Text.ofList (Text.foldRuns wildcard false s.toList)

def wrap (leading trailing : Bool) (s : Text) : Text :=
  (if leading then ("%" : Text) else "") ++ s ++ (if trailing then ("%" : Text) else "")

end Paging.Like
