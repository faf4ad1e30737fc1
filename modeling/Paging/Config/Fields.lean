import Paging.Config
import Paging.Notice
import Paging.Validation
import Paging.Value.Text

/-!
Settings as named fields. They are read from loosely typed ones: all problems are reported, in the
order in which the settings are declared, and fields of other names are passed over.
-/

namespace Paging.Config

open Validation

def connectorOf (v : Value) : Connector :=
  let text : Text := if v.isEmpty then "" else v.display
  (Connector.ofText? (Text.upper (Text.strip text))).getD .or

def programOnly (fields : Fields) (name : String) : Checked Unit :=
  field fields name () fun _ => .error .callableType

def ofFields (fields : Fields) : Checked Config :=
  let base : Config := {}
  let defaultSize := field fields "default_size" base.defaultSize toInt
  let fieldWrapper := field fields "field_wrapper" base.fieldWrapper toText
  let valueWrapper := field fields "value_wrapper" base.valueWrapper toText
  let smartSearch := field fields "smart_search" base.smartSearch toBool
  let customParams := field fields "custom_param_enabled" base.customParams toBool
  let pageParams := textsField fields "page_params"
  let sizeParams := textsField fields "size_params"
  let sortParams := textsField fields "sort_params"
  let orderParams := textsField fields "order_params"
  let filterParams := textsField fields "filter_params"
  let fieldsParams := textsField fields "fields_params"
  let fieldSelector := field fields "field_selector_enabled" base.fieldSelector toBool
  let errorEnabled := field fields "error_enabled" base.errorEnabled toBool
  let dialect := field fields "dialect" base.dialect (orNull toText)
  let cacheTtl := field fields "cache_ttl" base.cacheTtl (orNull toInt)
  let countCache := field fields "count_cache_enabled" base.countCache toBool
  let marshal := programOnly fields "marshal"
  let unmarshal := programOnly fields "unmarshal"
  let found := List.flatten
    [problems defaultSize, problems fieldWrapper, problems valueWrapper, problems smartSearch,
     problems customParams, problems pageParams, problems sizeParams, problems sortParams,
     problems orderParams, problems filterParams, problems fieldsParams, problems fieldSelector,
     problems errorEnabled, problems dialect, problems cacheTtl, problems countCache,
     problems marshal, problems unmarshal]
  if found.isEmpty then do
    return {
      defaultSize := ← defaultSize
      operator := ((fields.get? "operator").map connectorOf).getD base.operator
      fieldWrapper := ← fieldWrapper
      valueWrapper := ← valueWrapper
      smartSearch := ← smartSearch
      customParams := ← customParams
      pageParams := ← pageParams
      sizeParams := ← sizeParams
      sortParams := ← sortParams
      orderParams := ← orderParams
      filterParams := ← filterParams
      fieldsParams := ← fieldsParams
      fieldSelector := ← fieldSelector
      errorEnabled := ← errorEnabled
      dialect := ← dialect
      cacheTtl := ← cacheTtl
      countCache := ← countCache }
  else .error found

def source : String := "query_paginator.paginator"

/-- The settings that a value gives. Those that cannot be used are replaced by the defaults as a
whole, and a notice says why. -/
def ofValue (v : Value) : Except Notice Config :=
  match v with
  | .null => .ok {}
  | .object fields =>
    (ofFields fields).mapError fun ps =>
      ⟨.error, source, "Invalid paginator configuration: " ++
        Validation.summary ps "PaginatorConfig"⟩
  | v =>
    .error ⟨.error, source, "Unsupported configuration object: " ++ v.kind ++ "; using defaults"⟩

def textsValue (xs : List String) : Value := .list (xs.map fun (x : String) => .text x)

def toFields (c : Config) : Fields :=
  [("default_size", .int c.defaultSize), ("operator", .text c.operator.text),
   ("field_wrapper", .text c.fieldWrapper), ("value_wrapper", .text c.valueWrapper),
   ("smart_search", .bool c.smartSearch), ("custom_param_enabled", .bool c.customParams),
   ("page_params", textsValue c.pageParams), ("size_params", textsValue c.sizeParams),
   ("sort_params", textsValue c.sortParams), ("order_params", textsValue c.orderParams),
   ("filter_params", textsValue c.filterParams), ("fields_params", textsValue c.fieldsParams),
   ("field_selector_enabled", .bool c.fieldSelector), ("error_enabled", .bool c.errorEnabled),
   ("dialect", match c.dialect with
     | some name => .text name
     | none => .null),
   ("cache_ttl", match c.cacheTtl with
     | some n => .int n
     | none => .null),
   ("count_cache_enabled", .bool c.countCache), ("sql_dialect", .text c.sqlDialect.name)]

end Paging.Config
