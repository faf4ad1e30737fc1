import Paging.Column
import Paging.Config
import Paging.Filter
import Paging.Notice
import Paging.Text.Template
import Paging.Value.Number

/-!
Predicates: the tokens of a condition with a placeholder for each parameter, and the parameters from
left to right. A comparison that cannot be expressed drops out, and the connectors around it are
repaired.
-/

namespace Paging

structure Predicate where
  tokens : List Text := []
  params : List Value := []

namespace Predicate

/-- The token that stands for a parameter. -/
def placeholder : Text := "?"

def text (p : Predicate) : Text := Text.intercalate " " p.tokens

end Predicate

/-- Why a comparison drops out of a predicate. -/
inductive Dropped
  | column (name : Text)
  | needsTwo (operator column : Text)
  | needsList (operator column : Text)

def Dropped.message : Dropped → Text
  | .column name => "Dropping comparison on unusable column " ++ Text.quoted name
  | .needsTwo op name => "Dropping " ++ op ++ " on " ++ name ++ ": needs two values"
  | .needsList op name => "Dropping " ++ op ++ " on " ++ name ++ ": needs a list"

namespace Comparison

open Predicate

/-- The column of a comparison as it stands in a predicate; empty if nothing is left of it. -/
def columnToken (cfg : Config) (column : Text) : Text :=
  cfg.sqlDialect.quote (Column.resolve column)

/-- Null, or a text that says so. -/
def isNull : Value → Bool
  | .null => true
  | .text s => Text.lower s == "null"
  | _ => false

/-- How an operator treats its value; one that is unknown compares plainly. -/
def family (operator : Text) : FilterOperator.Family :=
  match FilterOperator.ofText? operator with
  | some o => o.family
  | none => .plain

def wrappedColumn (cfg : Config) (column : Text) : Except Text.TemplateError Text :=
  if cfg.fieldWrapper.isEmpty then .ok column else Text.Template.fill cfg.fieldWrapper column

def wrappedValue (cfg : Config) : Value → Except Text.TemplateError Value
  | .text s =>
    if cfg.valueWrapper.isEmpty then .ok (.text (Text.lower s))
    else (Text.Template.fill cfg.valueWrapper s).map .text
  | v => .ok v

def patternPredicate (cfg : Config) (column : Text) (c : Comparison) :
    Except Text.TemplateError Predicate := do
  let column ← wrappedColumn cfg column
  let value ← wrappedValue cfg c.value
  let suffix := if c.suffix.isEmpty then [] else [c.suffix]
  return ⟨[column, c.operator, placeholder] ++ suffix, [value]⟩

def predicate (cfg : Config) (c : Comparison) :
    Except Text.TemplateError (Except Dropped Predicate) :=
  let column := columnToken cfg c.column
  if column.isEmpty then .ok (.error (.column c.column))
  else match family c.operator with
    | .nullCheck =>
      if isNull c.value then .ok (.ok ⟨[column, c.operator, "NULL"], []⟩)
      else .ok (.ok ⟨[column, c.operator, placeholder], [c.value]⟩)
    | .range =>
      match c.value.elements? with
      | some [low, high] =>
        .ok (.ok ⟨["(", column, c.operator, placeholder, "AND", placeholder, ")"],
          [low.coerced, high.coerced]⟩)
      | _ => .ok (.error (.needsTwo c.operator c.column))
    | .set =>
      match c.value.elements? with
      | some _ => .ok (.ok ⟨[column, c.operator, placeholder], [c.value.coerced]⟩)
      | none => .ok (.error (.needsList c.operator c.column))
    | .pattern => (patternPredicate cfg column c).map .ok
    | .plain => .ok (.ok ⟨[column, c.operator, placeholder], [c.value.coerced]⟩)

/-- The predicate of one comparison, empty if it drops out. -/
def predicateOrEmpty (cfg : Config) (c : Comparison) : Except Text.TemplateError Predicate :=
  (predicate cfg c).map fun p => match p with
    | .ok p => p
    | .error _ => {}

end Comparison

namespace Predicate

/-- A part of a group: an operand or a connector, with its predicate. -/
structure Fragment where
  isConnector : Bool
  predicate : Predicate

def connectorFragment (symbol : Text) : Fragment := ⟨true, ⟨[symbol], []⟩⟩

/-- Some fragments in parentheses; nothing around nothing. -/
def enclose : List Fragment → Predicate
  | [] => {}
  | fs =>
    ⟨("(" : Text) :: fs.flatMap (fun f => f.predicate.tokens) ++ [(")" : Text)],
      fs.flatMap fun f => f.predicate.params⟩

/-- The group of some fragments: those without tokens drop out, and the connectors are repaired. -/
def assemble (cfg : Config) (fs : List Fragment) : Predicate :=
  enclose (interleave Fragment.isConnector (connectorFragment cfg.operator.text)
    (fs.filter fun f => !f.predicate.tokens.isEmpty))

mutual

def ofFilter (cfg : Config) : Filter → Except Text.TemplateError Predicate
  | .comparison c => c.predicateOrEmpty cfg
  | .connector symbol => .ok ⟨[symbol], []⟩
  | .group children => do
    let fs ← fragments cfg children
    return assemble cfg fs

def fragments (cfg : Config) : List Filter → Except Text.TemplateError (List Fragment)
  | [] => .ok []
  | f :: fs => do
    let p ← ofFilter cfg f
    let ps ← fragments cfg fs
    return ⟨f.isConnector, p⟩ :: ps

end

def source : String := "query_paginator.compiler"

/-- The notices about the comparisons that drop out, up to the first that fails. -/
def dropNotices (cfg : Config) : List Comparison → List Notice
  | [] => []
  | c :: cs =>
    match c.predicate cfg with
    | .error _ => []
    | .ok (.error why) => ⟨.debug, source, why.message⟩ :: dropNotices cfg cs
    | .ok (.ok _) => dropNotices cfg cs

end Predicate

end Paging
