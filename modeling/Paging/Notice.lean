import Paging.Text

/-!
Notices: what the library tells its operator about a request, apart from the answer.
-/

namespace Paging

inductive Level
  | debug | warning | error
  deriving DecidableEq

structure Notice where
  level : Level
  source : String
  text : Text
  deriving DecidableEq

end Paging
