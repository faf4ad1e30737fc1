import Paging.Text.Case
import Paging.Text.Split

/-!
Column references. `relation.field` names the column `Relation__field` of a joined table; a
reference without a dot names a column as it is.
-/

namespace Paging.Column

def isAlphanumeric (c : Letter) : Bool := c.isAlphanum

/-- May stand behind a dropped underscore: a digit or a capital of ASCII. -/
def opensWord (c : Letter) : Bool := c.isDigit || c.isUpper

/-- Drop an underscore between a letter or digit and what opens a word. `before` is the character
before, if it may take part. -/
def joinWords : Option Letter → List Letter → List Letter
  | _, [] => []
  | before, c :: r =>
    if c = '_' ∧ before.any isAlphanumeric ∧ r.head?.any opensWord then joinWords none r
    else c :: joinWords (some c) r

/-- Every word of a snake-case name with a capital, and no underscores between them. -/
def pascal (s : Text) : Text :=
  Text.ofList (joinWords none (Text.title s).toList)

/-- What stands between the parts of a joined table's column. -/
def joint : Text := "__"

def resolveBy (rename : Text → Text) (reference : Text) : Text :=
  match Text.split '.' reference with
  | relation :: field :: more => joint.intercalate (rename relation :: field :: more)
  | _ => reference

def resolve (reference : Text) : Text :=
  resolveBy pascal reference

end Paging.Column
