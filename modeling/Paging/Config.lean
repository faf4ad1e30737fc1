import Paging.Dialect
import Paging.Operator

/-!
The settings of a paginator. They are shared by all requests; `Config.resolve` derives those of one
request from the dialect of the database that it is run against.
-/

namespace Paging

structure Config where
  /-- The page size of a request that carries none. -/
  defaultSize : Int := 10
  /-- The connector between neighbours that have none. -/
  operator : Connector := .or
  /-- The template for the column of a pattern match; empty for none. -/
  fieldWrapper : String := ""
  /-- The template for the text of a pattern match; the text is put into lower case if empty. -/
  valueWrapper : String := ""
  /-- Fold the blank runs in patterns to wildcards. -/
  smartSearch : Bool := false
  /-- Look the parameters up by the alias lists. -/
  customParams : Bool := false
  pageParams : List String := []
  sizeParams : List String := []
  sortParams : List String := []
  orderParams : List String := []
  filterParams : List String := []
  fieldsParams : List String := []
  /-- Heed the client's field list. -/
  fieldSelector : Bool := false
  /-- Show the message of a failed query in its page. -/
  errorEnabled : Bool := false
  dialect : Option String := none
  /-- How many seconds an entry of the cache lives; forever if missing or zero. -/
  cacheTtl : Option Int := none
  /-- Keep row counts in the cache. -/
  countCache : Bool := false
  deriving DecidableEq

namespace Config

/-- The page size where neither the request nor the settings give one. -/
def fallbackSize : Int := 10

def pageSize (c : Config) : Int :=
  if 0 < c.defaultSize then c.defaultSize else fallbackSize

def sqlDialect (c : Config) : Dialect :=
  Dialect.ofName? c.dialect

/-- The settings for a database: its dialect goes before the configured one, and gives the column
template if neither template is configured. -/
def resolve (c : Config) (dialect : Option String) : Config :=
  let name := dialect.or c.dialect
  { c with
    dialect := name
    defaultSize := c.pageSize
    fieldWrapper :=
      if c.fieldWrapper.isEmpty && c.valueWrapper.isEmpty then (Dialect.ofName? name).fieldWrapper
      else c.fieldWrapper }

end Config

end Paging
