import Paging.Proofs.FieldOrder
import Paging.Sql.Executor

/-! Statements up to the order of fields. Queries that differ in nothing but the order of fields in
their parameters print as one text, with parameters that differ in nothing else. -/
namespace Paging.Sql

def Bind.ordered (b : Bind) : Bind := { b with value := b.value.ordered }

def orderedBinds (binds : List (Text × Bind)) : List (Text × Bind) :=
  binds.map fun b => (b.1, b.2.ordered)

def Clause.ordered (clause : Clause) : Clause := { clause with binds := orderedBinds clause.binds }

def Part.ordered : Part → Part
  | .char c => .char c
  | .bind name b => .bind name b.ordered

def Piece.ordered : Piece → Piece
  | .text s => .text s
  | .bind name b => .bind name b.ordered
  | .label seed => .label seed

def Printed.ordered (p : Printed) : Printed :=
  { p with params := p.params.map fun f => (f.1, f.2.ordered) }

/-! ### Clauses -/

theorem Bind.ofValue_ordered (v : Value) : ofValue v.ordered = (ofValue v).ordered := by
  rw [ofValue, ofValue, Value.elements?_ordered]
  cases v.elements? with
  | none => rfl
  | some xs => simp [Bind.ordered, Value.ordered, Value.orderedList_eq_map]

namespace Clause

theorem place_ordered (tokens : List Text) (params : List Value) (index : Nat) :
    place index tokens (params.map Value.ordered) =
      (place index tokens params).map fun r => (r.1, orderedBinds r.2) := by
  induction tokens generalizing params index with
  | nil => rfl
  | cons token tokens ih =>
    rw [place.eq_def, place.eq_def index (token :: tokens) params]
    dsimp only
    split
    · cases params with
      | nil => rfl
      | cons v vs =>
        rw [List.map_cons]
        dsimp only
        rw [ih vs (index + 1), Bind.ofValue_ordered]
        cases place (index + 1) tokens vs <;> rfl
    · rw [ih params index]
      cases place index tokens params <;> rfl

theorem ofQuery_ordered (q : Query) :
    ofQuery q.ordered = (ofQuery q).map (Option.map Clause.ordered) := by
  have hwheres : q.ordered.wheres = q.wheres := rfl
  have hparams : q.ordered.params = q.params.map Value.ordered := rfl
  rw [ofQuery, ofQuery, hwheres, hparams, place_ordered]
  split
  · rfl
  · cases place 0 q.wheres q.params <;> rfl

theorem lookup_orderedBinds (binds : List (Text × Bind)) (name : Text) :
    (orderedBinds binds).lookup name = (binds.lookup name).map Bind.ordered := by
  induction binds with
  | nil => rfl
  | cons b binds ih =>
    obtain ⟨k, x⟩ := b
    rw [orderedBinds, List.map_cons, List.lookup_cons, List.lookup_cons, ← orderedBinds, ih]
    cases name == k <;> rfl

theorem bind?_ordered (clause : Clause) (name : Text) :
    clause.ordered.bind? name = (clause.bind? name).map Bind.ordered := by
  have hbinds : clause.ordered.binds = orderedBinds clause.binds := rfl
  have htext : clause.ordered.text = clause.text := rfl
  rw [bind?, bind?, hbinds, htext, lookup_orderedBinds]
  cases clause.binds.lookup name with
  | some b => rfl
  | none =>
    dsimp only [Option.map_none]
    split <;> rfl

theorem partsFrom_ordered (clause : Clause) (cs : List Letter) (skip : Nat)
    (before : Option Letter) :
    clause.ordered.partsFrom skip before cs =
      (clause.partsFrom skip before cs).map Part.ordered := by
  induction cs generalizing skip before with
  | nil => cases skip <;> rfl
  | cons c cs ih =>
    cases skip with
    | succ skip => exact ih skip (some c)
    | zero =>
      rw [partsFrom, partsFrom]
      split
      · simp only [bind?_ordered]
        cases printedName? cs with
        | none => exact congrArg _ (ih 0 (some c))
        | some name =>
          dsimp only [Option.bind_some]
          cases clause.bind? (Text.ofList name) with
          | none => exact congrArg _ (ih 0 (some c))
          | some b => exact congrArg _ (ih name.length (some c))
      · split
        · exact ih 0 (some c)
        · exact congrArg _ (ih 0 (some c))

theorem pieces_ordered (clause : Clause) :
    clause.ordered.pieces = clause.pieces.map Piece.ordered := by
  have hparts : clause.ordered.parts = clause.parts.map Part.ordered :=
    clause.partsFrom_ordered clause.text.toList 0 none
  rw [pieces, pieces, hparts, List.map_map, List.map_map]
  exact List.map_congr_left fun part _ => by cases part <;> rfl

end Clause

/-! ### Print -/

theorem map_insert (fields : Fields) (name : Text) (v : Value) :
    (fields.insert name v).map (fun f => (f.1, f.2.ordered)) =
      Fields.insert name v.ordered (fields.map fun f => (f.1, f.2.ordered)) := by
  induction fields with
  | nil => rfl
  | cons f fields ih =>
    rw [Fields.insert, List.map_cons, Fields.insert]
    split
    · rfl
    · rw [List.map_cons, ih]

theorem Printed.add_ordered (p : Printed) (piece : Piece) :
    (p.add piece).ordered = p.ordered.add piece.ordered := by
  cases piece with
  | text s | label seed => rfl
  | bind name b =>
    have hparams := map_insert p.params (p.nameOf name) b.value
    cases name <;> simp only [add, ordered, hparams] <;> rfl

theorem print_ordered (pieces : List Piece) :
    (print pieces).ordered = print (pieces.map Piece.ordered) := by
  have hfold (p : Printed) : (pieces.foldl Printed.add p).ordered =
      (pieces.map Piece.ordered).foldl Printed.add p.ordered := by
    induction pieces generalizing p with
    | nil => rfl
    | cons piece pieces ih => rw [List.foldl_cons, ih, Printed.add_ordered]; rfl
  exact hfold {}

/-! ### Statements -/

namespace Statement

theorem conditionPieces_ordered (condition : Option Clause) :
    conditionPieces (condition.map Clause.ordered) =
      (conditionPieces condition).map Piece.ordered := by
  cases condition with
  | none => rfl
  | some clause =>
    have hparts : clause.ordered.parts = clause.parts.map Part.ordered :=
      clause.partsFrom_ordered clause.text.toList 0 none
    rw [Option.map_some, conditionPieces, conditionPieces, hparts, List.isEmpty_map,
      Clause.pieces_ordered]
    split <;> rfl

theorem printed_congr (st : Statement) {condition condition' : Option Clause}
    (h : condition.map Clause.ordered = condition'.map Clause.ordered) :
    ({ st with condition := condition }).printed.ordered =
      ({ st with condition := condition' }).printed.ordered := by
  have hpieces : (conditionPieces condition).map Piece.ordered =
      (conditionPieces condition').map Piece.ordered := by
    rw [← conditionPieces_ordered, h, conditionPieces_ordered]
  rw [printed, printed, print_ordered, print_ordered]
  simp only [pieces, List.map_append, hpieces]

end Statement

/-! ### Databases -/

structure Database.Steady (db : Database) : Prop where
  count : ∀ p p' : Printed, p.ordered = p'.ordered → db.count p = db.count p'
  rows : ∀ p p' : Printed, p.ordered = p'.ordered → db.rows p = db.rows p'

variable {q q' : Query}

theorem Clause.ofQuery_congr (hwheres : q.wheres = q'.wheres)
    (hparams : q.params.map Value.ordered = q'.params.map Value.ordered) :
    (ofQuery q).map (Option.map Clause.ordered) =
      (ofQuery q').map (Option.map Clause.ordered) := by
  rw [← ofQuery_ordered, ← ofQuery_ordered]
  have hw : q.ordered.wheres = q'.ordered.wheres := hwheres
  have hp : q.ordered.params = q'.ordered.params := hparams
  rw [ofQuery, ofQuery, hw, hp]

/-- Running a statement heeds the order of fields in its condition as little as the database. -/
theorem run_congr {α : Type} (st : Statement) (hwheres : q.wheres = q'.wheres)
    (hparams : q.params.map Value.ordered = q'.params.map Value.ordered)
    {act : Printed → Except String α} (hact : ∀ p p', p.ordered = p'.ordered → act p = act p') :
    run (do return { st with condition := ← Clause.ofQuery q }) act =
      run (do return { st with condition := ← Clause.ofQuery q' }) act := by
  have hclause := Clause.ofQuery_congr hwheres hparams
  have hrun (p p' : Printed) (h : p.ordered = p'.ordered) : p.run act = p'.run act := by
    obtain ⟨hsql, -, -, huses⟩ := Printed.mk.inj h
    have hclash : p.clash = p'.clash := congrArg (Clash.first []) huses
    rw [Printed.run, Printed.run, hact p p' h, hsql, hclash]
  cases hc : Clause.ofQuery q with
  | error e =>
    cases hc' : Clause.ofQuery q' with
    | error e' =>
      rw [hc, hc'] at hclause
      rw [Except.error.inj hclause]
    | ok c' =>
      rw [hc, hc'] at hclause
      cases hclause
  | ok c =>
    cases hc' : Clause.ofQuery q' with
    | error e' =>
      rw [hc, hc'] at hclause
      cases hclause
    | ok c' =>
      rw [hc, hc'] at hclause
      exact hrun _ _ (st.printed_congr (Except.ok.inj hclause))

/-- The count of a base statement's rows for a query depends on the tokens of its condition and on
the parameters up to the order of fields. -/
theorem count_congr {db : Database} (hdb : db.Steady) (b : Base) (hwheres : q.wheres = q'.wheres)
    (hparams : q.params.map Value.ordered = q'.params.map Value.ordered) :
    run (Statement.count b q) db.count = run (Statement.count b q') db.count :=
  run_congr { projection := .count, base := b } hwheres hparams hdb.count

theorem fetch_congr {db : Database} (hdb : db.Steady) (b : Base) (fields : List Text)
    (hq : q.ordered = q'.ordered) :
    run (Statement.fetch b q fields) db.rows = run (Statement.fetch b q' fields) db.rows := by
  obtain ⟨hwheres, hparams, hlimit, hoffset, hsorts⟩ := Query.mk.inj hq
  have hrun := run_congr
    { projection := .columns (Statement.selected b fields), base := b
      order := q.sorts.map Clause.ofSortKey
      window := if 0 < q.limit then some (q.limit, q.offset) else none }
    hwheres hparams hdb.rows
  rw [Statement.fetch, Statement.fetch, ← hlimit, ← hoffset, ← hsorts]
  exact hrun

end Paging.Sql
