import Paging.Text

/-!
Splitting a text at a separator and joining the pieces again.
-/

namespace Paging.Text

/-- The pieces between the separators: one more than there are separators. -/
def splitChars (sep : Letter) : List Letter → List (List Letter)
  | [] => [[]]
  | c :: r =>
    if c = sep then [] :: splitChars sep r
    else match splitChars sep r with
      | [] => [[c]]
      | w :: ws => (c :: w) :: ws

def split (sep : Letter) (s : Text) : List Text :=
  (splitChars sep s.toList).map Text.ofList

def keep (p : Letter → Bool) (s : Text) : Text :=
  Text.ofList (s.toList.filter p)

end Paging.Text
