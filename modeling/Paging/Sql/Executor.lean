import Paging.Sql.Statement

/-!
The executor of a base statement, on a database that runs printed statements.
-/

namespace Paging.Sql

/-- A database runs a printed statement or refuses it with a message. -/
structure Database where
  count : Printed → Except String Int
  rows : Printed → Except String (List Row)

def nameOf (b : Base) (given : Option String) : String :=
  (given.filter fun n => !n.isEmpty).getD b.table

def dialectOf (given connected : Option String) : Option String :=
  (given.filter fun n => !n.isEmpty).or connected

def source : String := "query_paginator.sqlalchemy"

def remarks (b : Base) (name : String) (fields : List Text) : List Notice :=
  match fields.filter fun f => !(b.columns.contains f) with
  | [] => []
  | unknown =>
    [⟨.debug, source, "Ignoring unknown fields on " ++ name ++ ": " ++
      (Value.list (unknown.map .text)).quoted⟩]

/-- Run a printed statement, or say that it was refused. One whose parameters clash is not run. -/
def Printed.run {α : Type} (p : Printed) (act : Printed → Except String α) :
    Except ExecutionError α :=
  match p.clash with
  | some clash => .error (.other clash.message)
  | none => (act p).mapError fun message => .refused message (some p.sql)

def run {α : Type} (statement : Except ExecutionError Statement)
    (act : Printed → Except String α) : Except ExecutionError α :=
  match statement with
  | .error e => .error e
  | .ok st => st.printed.run act

/-- The executor of a base statement; `item` makes an item of a row. -/
def executor (b : Base) (name : String) (dialect : Option String) (db : Database)
    (item : Row → Row) : Executor where
  name := name
  dialect := dialect
  count := fun q => run (Statement.count b q) db.count
  fetch := fun q fields => (run (Statement.fetch b q fields) db.rows).map fun rows => rows.map item
  remarks := remarks b name

end Paging.Sql
