import Paging.Text.Case

/-!
The conventions of a database: how an identifier is quoted, how a column is wrapped for a match
without case, and which escape a pattern declares.
-/

namespace Paging

/-- How identifiers are quoted: the quote is doubled inside, and so is the percent sign where the
driver reads it. -/
structure Quoting where
  mark : Letter
  doublesPercent : Bool
  deriving DecidableEq

structure Dialect where
  name : String
  fieldWrapper : String := "LOWER(%s)"
  escapeChar : Text := ""
  escapeSuffix : Text := ""
  quoting : Option Quoting := none
  deriving DecidableEq

namespace Quoting

def character (q : Quoting) (c : Letter) : List Letter :=
  if c = q.mark ∨ (c = '%' ∧ q.doublesPercent) then [c, c] else [c]

def quote (q : Quoting) (identifier : Text) : Text :=
  Text.ofList (q.mark :: identifier.toList.flatMap q.character ++ [q.mark])

end Quoting

namespace Dialect

def standard : Dialect where
  name := "default"

def postgresql : Dialect where
  name := "postgresql"
  fieldWrapper := "LOWER((%s)::text)"
  escapeChar := "\\"
  escapeSuffix := "ESCAPE '\\'"
  quoting := some ⟨'\x22', true⟩

def sqlite : Dialect where
  name := "sqlite"
  escapeChar := "\\"
  escapeSuffix := "ESCAPE '\\'"
  quoting := some ⟨'\x22', false⟩

/-- Text literals of this database treat the backslash as an escape themselves, so it stands twice
in the clause. -/
def mysql : Dialect where
  name := "mysql"
  escapeChar := "\\"
  escapeSuffix := "ESCAPE '\\\\'"
  quoting := some ⟨'\x60', true⟩

def mariadb : Dialect :=
  { mysql with name := "mariadb" }

def table : List (Text × Dialect) :=
  [("postgresql", postgresql), ("postgres", postgresql), ("sqlite", sqlite), ("mysql", mysql),
   ("mariadb", mariadb)]

/-- The dialect of a name in any case; the standard one if the name is empty or unknown. -/
def ofName (name : String) : Dialect :=
  if name.isEmpty then standard else (table.lookup (Text.lower name)).getD standard

def ofName? (name : Option String) : Dialect :=
  match name with
  | some n => ofName n
  | none => standard

/-- A letter, a digit or the underscore, of ASCII. -/
def isBare (c : Letter) : Bool := c.isAlphanum || c == '_'

/-- Write an identifier. Without quotes only word characters are left of it, perhaps none. -/
def quote (d : Dialect) (identifier : Text) : Text :=
  match d.quoting with
  | some q => q.quote identifier
  | none => Text.ofList (identifier.toList.filter isBare)

end Dialect

end Paging
