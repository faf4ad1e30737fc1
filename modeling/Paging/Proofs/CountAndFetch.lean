import Paging.Proofs.Numbering
import Paging.Proofs.Projection
import Paging.Proofs.SortColumn
import Paging.Proofs.Window

/-! The two statements of a query. The statement that counts and the one that fetches have the same
source and the same condition, with the same values in both, so they speak of the same rows; only
the second one has an order and a window. -/
namespace Paging

namespace Sql

open Pieces

namespace Clause

theorem items_take (index : ℕ) {tokens : List Text} {params : List Value}
    (h : tokens.count Predicate.placeholder ≤ params.length) :
    items index tokens params =
      items index tokens (params.take (tokens.count Predicate.placeholder)) := by
  have htoken {t : Text} (ht : t ≠ Predicate.placeholder) (index : ℕ) (ts : List Text)
      (params : List Value) : items index (t :: ts) params = .token t :: items index ts params := by
    cases params <;> simp [items, ht]
  induction tokens generalizing index params with
  | nil => cases params <;> rfl
  | cons t ts ih =>
    by_cases ht : t = Predicate.placeholder
    · subst ht
      cases params with
      | nil => simp at h
      | cons v vs =>
        have hcount : ts.count Predicate.placeholder ≤ vs.length := by simpa using h
        simp [items, ih (index + 1) hcount]
    · have hcount : (t :: ts).count Predicate.placeholder = ts.count Predicate.placeholder := by
        simp [ht]
      rw [htoken ht, htoken ht, hcount, ← ih index (hcount ▸ h)]

theorem place_token {t : Text} (ht : t ≠ Predicate.placeholder) (index : ℕ) (ts : List Text)
    (params : List Value) :
    place index (t :: ts) params =
      (place index ts params).map fun r => (escapeColons t :: r.1, r.2) := by
  cases params <;> simp [place, ht]

theorem place_take (index : ℕ) {tokens : List Text} {params : List Value}
    (h : tokens.count Predicate.placeholder ≤ params.length) :
    place index tokens params =
      place index tokens (params.take (tokens.count Predicate.placeholder)) := by
  induction tokens generalizing index params with
  | nil => cases params <;> rfl
  | cons t ts ih =>
    by_cases ht : t = Predicate.placeholder
    · subst ht
      cases params with
      | nil => simp at h
      | cons v vs =>
        have hcount : ts.count Predicate.placeholder ≤ vs.length := by simpa using h
        simp [place, ih (index + 1) hcount]
    · have hcount : (t :: ts).count Predicate.placeholder = ts.count Predicate.placeholder := by
        simp [ht]
      rw [place_token ht, place_token ht, hcount, ← ih index (hcount ▸ h)]

theorem place_of_lt (index : ℕ) {tokens : List Text} {params : List Value}
    (h : params.length < tokens.count Predicate.placeholder) :
    place index tokens params = .error .missingParameter := by
  induction tokens generalizing index params with
  | nil => simp at h
  | cons t ts ih =>
    by_cases ht : t = Predicate.placeholder
    · subst ht
      cases params with
      | nil => simp [place]
      | cons v vs =>
        have hcount : vs.length < ts.count Predicate.placeholder := by simpa using h
        simp [place, ih (index + 1) hcount, Except.map]
    · have hcount : params.length < ts.count Predicate.placeholder := by simpa [ht] using h
      rw [place_token ht, ih index hcount]
      rfl

/-- A condition in its place as it is printed; one that prints nothing is left out. -/
def whereText (is : List Item) : Text :=
  let text := Text.intercalate " " (is.map Item.printed)
  if text = "" then "" else " \nWHERE " ++ text

def conditionText (q : Query) : Text := whereText (items 0 q.wheres q.params)

def conditionFields (q : Query) : Fields :=
  (named 0 (q.params.take (q.wheres.count Predicate.placeholder))).map fun b => (b.1, b.2.value)

theorem shown_ne_nil (part : Part) : part.shown ≠ [] := by
  cases part with
  | char c => exact List.cons_ne_nil _ _
  | bind name b =>
    rw [Part.shown, Printed.marker]
    split <;> simp

theorem ofQuery_of_lt {q : Query}
    (h : q.params.length < q.wheres.count Predicate.placeholder) :
    ofQuery q = .error .missingParameter := by
  have hne : q.wheres ≠ [] := by
    intro hnil
    simp [hnil] at h
  simp [ofQuery, hne, place_of_lt 0 h, Except.map]

section

variable {q : Query} (h : q.wheres.count Predicate.placeholder ≤ q.params.length)

include h

theorem binds_items :
    (items 0 q.wheres q.params).flatMap Item.binds =
      named 0 (q.params.take (q.wheres.count Predicate.placeholder)) := by
  rw [items_take 0 h]
  exact flatMap_binds_items 0 (by rw [List.length_take, min_eq_left h])

theorem named_items : Named (items 0 q.wheres q.params) := by
  constructor
  · intro b hb
    exact isName_of_mem_named (binds_items h ▸ hb)
  · rw [binds_items h]
    exact nodup_named 0 _

theorem ofQuery_of_le (hne : q.wheres ≠ []) :
    ofQuery q = .ok (some (ofItems (items 0 q.wheres q.params))) := by
  have hlength : q.wheres.count Predicate.placeholder =
      (q.params.take (q.wheres.count Predicate.placeholder)).length := by
    rw [List.length_take, min_eq_left h]
  have hplace := (place_take 0 h).trans (place_eq 0 hlength)
  simp [ofQuery, hne, hplace, Except.map, ofItems, binds_items h, ← items_take 0 h]

end

theorem conditionPieces_ofItems {is : List Item} (h : Named is) :
    Unnumbered (Statement.conditionPieces (some (ofItems is))) ∧ ∀ taken,
      shown taken (Statement.conditionPieces (some (ofItems is))) = whereText is ∧
      fields taken (Statement.conditionPieces (some (ofItems is))) =
        (is.flatMap Item.binds).map fun b => (b.1, b.2.value) := by
  have hempty : Unnumbered [] := by simp [Unnumbered]
  cases is with
  | nil => exact ⟨hempty, fun taken => ⟨rfl, rfl⟩⟩
  | cons i is =>
    have hshown := shown_ofItems h
    have hfields := fields_ofItems h
    rw [Statement.conditionPieces, whereText]
    by_cases hparts : (ofItems (i :: is)).parts = []
    · rw [hparts] at hshown hfields
      have htext : Text.intercalate " " ((i :: is).map Item.printed) = "" :=
        Text.toList_eq_nil_iff.mp hshown.symm
      simp only [hparts, List.isEmpty_nil, if_true, htext]
      exact ⟨hempty, fun taken => ⟨rfl, hfields⟩⟩
    · have htext : Text.intercalate " " ((i :: is).map Item.printed) ≠ "" := by
        rw [ne_eq, ← Text.toList_eq_nil_iff, ← hshown]
        obtain ⟨part, parts, hparts⟩ := List.exists_cons_of_ne_nil hparts
        rw [hparts, List.flatMap_cons]
        exact List.append_ne_nil_of_left_ne_nil (shown_ne_nil part) _
      have hsome : (ofItems (i :: is)).parts.isEmpty = false := by simpa using hparts
      simp only [hsome, Bool.false_eq_true, if_false, htext]
      refine ⟨List.forall_mem_cons.mpr ⟨rfl, ?_⟩, fun taken => ?_⟩
      · rw [pieces_eq]
        exact Part.unnumbered_pieces _
      · obtain ⟨hpieces, hpieceFields⟩ := Part.shown_pieces (ofItems (i :: is)).parts
          (after taken [.text " \nWHERE "])
        rw [Pieces.shown, Pieces.fields, pieces_eq, hpieceFields, hfields]
        refine ⟨congrArg _ ?_, rfl⟩
        rw [← Text.toList_inj, hpieces, hshown]

/-- A condition with enough parameters takes no numbers, so it is printed alike everywhere. -/
theorem exists_ofQuery {q : Query}
    (h : q.wheres.count Predicate.placeholder ≤ q.params.length) :
    ∃ condition, ofQuery q = .ok condition ∧
      Unnumbered (Statement.conditionPieces condition) ∧ ∀ taken,
        shown taken (Statement.conditionPieces condition) = conditionText q ∧
        fields taken (Statement.conditionPieces condition) = conditionFields q := by
  have hpieces := conditionPieces_ofItems (named_items h)
  rw [binds_items h] at hpieces
  by_cases hwheres : q.wheres = []
  · refine ⟨none, by simp [ofQuery, hwheres], ?_⟩
    -- Without tokens there are no items, and their clause prints nothing either.
    have hitems : items 0 q.wheres q.params = [] := by rw [hwheres]; cases q.params <;> rfl
    rw [hitems] at hpieces
    rw [conditionText, hitems]
    exact hpieces
  · exact ⟨_, ofQuery_of_le h hwheres, hpieces⟩

theorem partsFrom_inert (clause : Clause) (before : Option Letter) {s : List Letter}
    (h : ∀ c ∈ s, IsInert c) : clause.partsFrom 0 before s = s.map .char := by
  induction s generalizing before with
  | nil => rw [partsFrom]; rfl
  | cons c s ih =>
    obtain ⟨hc, hs⟩ := List.forall_mem_cons.mp h
    rw [partsFrom, if_neg (by simp [hc.2.1]), if_neg (by simp [hc.2.2]), ih _ hs]
    rfl

theorem shown_ofSortKey {s : SortKey} (h : ∀ c ∈ s.column.toList, IsInert c) :
    Silent (ofSortKey s).pieces ∧
      ∀ taken, shown taken (ofSortKey s).pieces = s.column ++ " " ++ s.direction.text := by
  have hdirection : ∀ c ∈ s.direction.text.toList, IsInert c := by
    cases s.direction <;> exact isInert_of_all (by decide)
  have htext : ∀ c ∈ (ofSortKey s).text.toList, IsInert c := by
    simp only [ofSortKey, Text.toList_append, List.forall_mem_append]
    exact ⟨⟨h, isInert_of_all (by decide)⟩, hdirection⟩
  have hparts : (ofSortKey s).parts = (ofSortKey s).text.toList.map .char :=
    partsFrom_inert _ _ htext
  rw [pieces_eq, hparts]
  constructor
  · intro p hp
    obtain ⟨part, hpart, rfl⟩ := List.mem_map.mp hp
    obtain ⟨c, -, rfl⟩ := List.mem_map.mp hpart
    exact ⟨_, rfl⟩
  · intro taken
    rw [← Text.toList_inj, (Part.shown_pieces _ taken).1]
    simp [List.flatMap_map, Part.shown, ofSortKey]

end Clause

namespace Clash

theorem first_append (seen us vs : List (Text × Use)) :
    first seen (us ++ vs) = (first seen us).or (first (us.reverse ++ seen) vs) := by
  induction us generalizing seen with
  | nil => rfl
  | cons u us ih => simp [first, ih, Option.or_assoc]

theorem lookup_reverse {us : List (Text × Use)} {name : Text}
    (h : name ∉ us.map Prod.fst) : us.reverse.lookup name = none := by
  rw [List.lookup_eq_none_iff]
  intro u hu
  have hne : name ≠ u.1 := by
    rintro rfl
    exact h (List.mem_map_of_mem (List.mem_reverse.mp hu))
  simpa using hne

end Clash

namespace Base

def counts (n : ℕ) (seed : Text) : ℕ := if seed = "count" then n else 0

def source (b : Base) (n : ℕ) : Text := shown (counts n) b.pieces

def binds (b : Base) (n : ℕ) : Fields := fields (counts n) b.pieces

def uses (b : Base) (n : ℕ) : List (Text × Use) := Pieces.uses (counts n) b.pieces

/-- A base statement has a parameter with this name of its own. -/
def Gives (b : Base) (name : Text) : Prop := ∃ p ∈ b.body, p.given? = some name

/-- A base statement takes numbers of a kind. -/
def Takes (b : Base) (seed : Text) : Prop := ∃ p ∈ b.body, p.kind? = some seed

/-- The name of a parameter of the window: the next numbers behind those of the base statement. -/
def windowName (b : Base) (i : ℕ) : Text :=
  numberedName "param" ((b.body.countP fun p => p.kind? = some ("param" : Text)) + i)

def limitName (b : Base) : Text := b.windowName 1

def offsetName (b : Base) : Text := b.windowName 2

variable (b : Base)

theorem after_pieces (taken : Text → ℕ) : after taken b.pieces = after taken b.body := by
  funext seed
  simp [after, pieces, Piece.kind?]

theorem after_counts (n : ℕ) (i : ℕ) :
    numberedName "param" (after (counts n) b.pieces "param" + i) = b.windowName i := by
  rw [after_pieces, after, counts, if_neg (by decide), Nat.zero_add, windowName]

theorem mem_pieces {P : Piece → Prop} (htext : ∀ s, ¬ P (.text s)) :
    (∃ p ∈ b.pieces, P p) ↔ ∃ p ∈ b.body, P p := by
  simp [pieces, htext]

/-- Where a base statement takes no numbers of counts, it does not matter how many stand in front
of it. -/
theorem source_eq {b : Base} (h : ¬ b.Takes "count") :
    b.source 1 = b.source 0 ∧ b.binds 1 = b.binds 0 ∧ b.uses 1 = b.uses 0 := by
  refine shown_congr fun p hp seed hseed => ?_
  have hne : seed ≠ "count" := by
    rintro rfl
    exact h ((b.mem_pieces (P := fun p => p.kind? = some ("count" : Text)) nofun).mp ⟨p, hp, hseed⟩)
  simp [counts, hne]

theorem limitName_ne_offsetName : b.limitName ≠ b.offsetName := by
  intro h
  have hnumbers := (numberedName_inj h).2
  omega

theorem gives_of_mem_binds {b : Base} {name : Text} (hname : name ∈ (b.binds 0).map Prod.fst)
    {i : ℕ} (hi : 0 < i) (h : name = b.windowName i) : b.Gives name := by
  obtain ⟨f, hf, rfl⟩ := List.mem_map.mp hname
  rcases mem_fields hf with hgiven | ⟨seed, n, hseed, hn⟩
  · exact (b.mem_pieces (P := fun p => p.given? = some f.1) nofun).mp hgiven
  · rw [hseed, ← after_counts b 0 i] at h
    obtain ⟨rfl, rfl⟩ := numberedName_inj h
    omega

theorem ne_windowName_of_mem_conditionFields {q : Query} {name : Text}
    (hname : name ∈ (Clause.conditionFields q).map Prod.fst) (i : ℕ) : name ≠ b.windowName i := by
  obtain ⟨f, hf, rfl⟩ := List.mem_map.mp hname
  obtain ⟨x, hx, rfl⟩ := List.mem_map.mp hf
  obtain ⟨p, -, rfl⟩ := List.mem_map.mp hx
  intro h
  have hunderscore : .char '_' ∈ (Clause.paramName p.2).toList := by
    have hwindow : (Clause.paramName p.2) = b.windowName i := h
    rw [hwindow, windowName, numberedName]
    simp
  rw [Clause.toList_paramName] at hunderscore
  rcases List.mem_cons.mp hunderscore with h | h
  · exact absurd h (by decide)
  · exact absurd (Json.isDigits_toDigits _ _ (char_mem_letters.mp h)) (by decide)

/-- Only a name that the base statement gives itself is also one of the window. -/
theorem gives_of_windowName {b : Base} {q : Query} {name : Text}
    (hname : name ∈ (b.binds 0 ++ Clause.conditionFields q).map Prod.fst)
    (h : name = b.limitName ∨ name = b.offsetName) : b.Gives name := by
  rw [List.map_append] at hname
  rcases List.mem_append.mp hname with hname | hname
  · exact h.elim (gives_of_mem_binds hname (by decide)) (gives_of_mem_binds hname (by decide))
  · have hne := ne_windowName_of_mem_conditionFields (b := b) hname
    exact absurd h (not_or.mpr ⟨hne 1, hne 2⟩)

theorem insertAll_window {b : Base} {q : Query} (hlimit : ¬ b.Gives b.limitName)
    (hoffset : ¬ b.Gives b.offsetName) (limit offset : Value) :
    Fields.insertAll [] (b.binds 0 ++ Clause.conditionFields q ++
        [(b.limitName, limit), (b.offsetName, offset)]) =
      Fields.insertAll [] (b.binds 0 ++ Clause.conditionFields q) ++
        [(b.limitName, limit), (b.offsetName, offset)] := by
  rw [Fields.insertAll_append]
  set others := Fields.insertAll [] (b.binds 0 ++ Clause.conditionFields q) with hothers
  have hmem {name : Text} (hname : name ∈ others.map Prod.fst) :
      name ∈ (b.binds 0 ++ Clause.conditionFields q).map Prod.fst := by
    rw [hothers, Fields.mem_insertAll] at hname
    exact hname.resolve_left List.not_mem_nil
  have hlimitName : b.limitName ∉ others.map Prod.fst := fun hname =>
    hlimit (gives_of_windowName (hmem hname) (.inl rfl))
  have hoffsetName : b.offsetName ∉ (others ++ [(b.limitName, limit)]).map Prod.fst := by
    rw [List.map_append, List.mem_append]
    rintro (hname | hname)
    · exact hoffset (gives_of_windowName (hmem hname) (.inr rfl))
    · exact b.limitName_ne_offsetName (List.mem_singleton.mp hname).symm
  calc
    others.insertAll [(b.limitName, limit), (b.offsetName, offset)]
      = (others.insert b.limitName limit).insert b.offsetName offset := rfl
    _ = (others ++ [(b.limitName, limit)]) ++ [(b.offsetName, offset)] := by
        rw [Json.insert_of_notMem _ hlimitName, Json.insert_of_notMem _ hoffsetName]
    _ = others ++ [(b.limitName, limit), (b.offsetName, offset)] := List.append_assoc ..

/-- A window with names of its own clashes with no other parameter. -/
theorem first_window {b : Base} {q : Query} (hlimit : ¬ b.Gives b.limitName)
    (hoffset : ¬ b.Gives b.offsetName) {us : List (Text × Use)}
    (hus : us.map Prod.fst = (b.binds 0 ++ Clause.conditionFields q).map Prod.fst) (u v : Use) :
    Clash.first [] (us ++ [(b.limitName, u), (b.offsetName, v)]) = Clash.first [] us := by
  have hlimitName : b.limitName ∉ us.map Prod.fst := fun hname =>
    hlimit (gives_of_windowName (hus ▸ hname) (.inl rfl))
  have hoffsetName : b.offsetName ∉ us.map Prod.fst := fun hname =>
    hoffset (gives_of_windowName (hus ▸ hname) (.inr rfl))
  have hne : (b.offsetName == b.limitName) = false := by
    simpa using b.limitName_ne_offsetName.symm
  rw [Clash.first_append, Clash.first, Clash.first, Clash.first, List.append_nil,
    Clash.lookup_reverse hlimitName, List.lookup_cons, hne, Clash.lookup_reverse hoffsetName]
  simp

end Base

namespace Statement

def orderText : List SortKey → Text
  | [] => ""
  | sorts => " ORDER BY " ++
    Text.intercalate ", " (sorts.map fun s => s.column ++ " " ++ s.direction.text)

def columnsText (names : List Text) : Text :=
  Text.intercalate ", " (names.map fun name => "s." ++ identifier name)

def binds (st : Statement) : Fields := fields (fun _ => 0) st.pieces

theorem silent_orderPieces {sorts : List SortKey}
    (h : ∀ s ∈ sorts, ∀ c ∈ s.column.toList, IsInert c) :
    Silent (orderPieces (sorts.map Clause.ofSortKey)) ∧
      ∀ taken, shown taken (orderPieces (sorts.map Clause.ofSortKey)) = orderText sorts := by
  cases sorts with
  | nil => exact ⟨by simp [Silent, orderPieces], fun taken => rfl⟩
  | cons s sorts =>
    have hgroups : ∀ g ∈ ((s :: sorts).map Clause.ofSortKey).map Clause.pieces, Silent g := by
      simp only [List.mem_map]
      rintro _ ⟨_, ⟨s', hs', rfl⟩, rfl⟩
      exact (Clause.shown_ofSortKey (h s' hs')).1
    refine ⟨List.forall_mem_cons.mpr ⟨⟨_, rfl⟩, Silent.commas hgroups⟩, fun taken => ?_⟩
    have hpieces : shown taken (orderPieces ((s :: sorts).map Clause.ofSortKey)) =
        " ORDER BY " ++ shown taken (commas (((s :: sorts).map Clause.ofSortKey).map
          Clause.pieces)) := rfl
    have horder : orderText (s :: sorts) = " ORDER BY " ++
        Text.intercalate ", " ((s :: sorts).map fun s => s.column ++ " " ++ s.direction.text) := rfl
    rw [hpieces, Silent.shown_commas hgroups, horder, List.map_map, List.map_map]
    refine congrArg (fun texts => (" ORDER BY " : Text) ++ Text.intercalate ", " texts) ?_
    exact List.map_congr_left fun s' hs' => (Clause.shown_ofSortKey (h s' hs')).2 taken

theorem columnPieces_of_nodup {names seen : List Text} (h : (seen ++ names).Nodup) :
    Projection.columnPieces seen names = names.map fun name => [Projection.column name] := by
  induction names generalizing seen with
  | nil => rfl
  | cons name names ih =>
    have hname : name ∉ seen := fun hmem =>
      (List.nodup_append.mp h).2.2 name hmem name List.mem_cons_self rfl
    have hrest : ((name :: seen) ++ names).Nodup :=
      (List.perm_middle.nodup_iff).mp h
    rw [Projection.columnPieces, if_neg (by simpa using hname), ih hrest, List.map_cons]

theorem silent_columns {names : List Text} (h : names.Nodup) :
    Silent (Projection.columns names).pieces ∧
      ∀ taken, shown taken (Projection.columns names).pieces =
        "SELECT " ++ columnsText names := by
  have hcolumns :
      Projection.columnPieces [] names = names.map fun name => [Projection.column name] :=
    columnPieces_of_nodup h
  have hgroups : ∀ g ∈ Projection.columnPieces [] names, Silent g := by
    rw [hcolumns]
    simp [Silent, Projection.column]
  refine ⟨List.forall_mem_cons.mpr ⟨⟨_, rfl⟩, Silent.commas hgroups⟩, fun taken => ?_⟩
  have hpieces : shown taken (Projection.columns names).pieces =
      "SELECT " ++ shown taken (commas (Projection.columnPieces [] names)) := rfl
  have hcolumn (name : Text) :
      shown taken [Projection.column name] = "s." ++ identifier name := by
    simp only [shown, Projection.column, Piece.shown, Base.rowsName, Text.append_empty]
    rfl
  rw [hpieces, Silent.shown_commas hgroups, hcolumns, List.map_map, columnsText]
  refine congrArg (fun texts => ("SELECT " : Text) ++ Text.intercalate ", " texts) ?_
  exact List.map_congr_left fun name _ => hcolumn name

theorem printed_eq (st : Statement) :
    st.printed.sql = shown (fun _ => 0) st.pieces ∧
      st.printed.params = Fields.insertAll [] st.binds ∧
      st.printed.uses = Pieces.uses (fun _ => 0) st.pieces :=
  print_eq st.pieces

/-- What two statements of a query print. Their sources are alike and so are their conditions, with
the parameters in both; the one that fetches has the columns, the order and the window besides. -/
structure Alike (b : Base) (q : Query) (fields : List Text) (counted fetched : Statement) :
    Prop where
  parts : counted.base = b ∧ fetched.base = b ∧ fetched.condition = counted.condition
  countSql : counted.printed.sql =
    "SELECT count(*) AS count_1" ++ b.source 1 ++ Clause.conditionText q
  fetchSql : fetched.printed.sql =
    "SELECT " ++ columnsText (selected b fields) ++ b.source 0 ++ Clause.conditionText q ++
      orderText q.sorts ++ ("\n LIMIT :" ++ b.limitName ++ " OFFSET :" ++ b.offsetName)
  countBinds : counted.binds = b.binds 1 ++ Clause.conditionFields q
  fetchBinds : fetched.binds = b.binds 0 ++ Clause.conditionFields q ++
    [(b.limitName, .int q.limit), (b.offsetName, .int q.offset)]
  values : (b.binds 1).map Prod.snd = (b.binds 0).map Prod.snd
  /-- Names are numbered from left to right. Of the kinds that a base statement numbers only that of
  the label in front of the counting one can be shifted. -/
  source : ¬ b.Takes "count" → b.source 1 = b.source 0 ∧ b.binds 1 = b.binds 0 ∧
    b.uses 1 = b.uses 0
  /-- The window takes names that are free, but a base statement may give such a name by itself. -/
  names : b.limitName ≠ b.offsetName ∧
    ∀ name ∈ (b.binds 0 ++ Clause.conditionFields q).map Prod.fst,
      name = b.limitName ∨ name = b.offsetName → b.Gives name
  params : ¬ b.Takes "count" → ¬ b.Gives b.limitName → ¬ b.Gives b.offsetName →
    fetched.printed.params = counted.printed.params ++
      [(b.limitName, .int q.limit), (b.offsetName, .int q.offset)] ∧
    fetched.printed.clash = counted.printed.clash
  /-- Without a window the same rows are fetched that are counted. -/
  unlimited : ∀ all, all = { fetched with window := none } →
    all.printed.sql = "SELECT " ++ columnsText (selected b fields) ++ b.source 0 ++
      Clause.conditionText q ++ orderText q.sorts ∧
    (¬ b.Takes "count" → all.printed.params = counted.printed.params ∧
      all.printed.clash = counted.printed.clash)

section

variable {b : Base} {q : Query} {condition : Option Clause}

theorem printed_counting
    (hunnumbered : Unnumbered (conditionPieces condition))
    (hcondition : ∀ taken, shown taken (conditionPieces condition) = Clause.conditionText q ∧
      fields taken (conditionPieces condition) = Clause.conditionFields q) :
    let st : Statement := { projection := .count, base := b, condition := condition }
    shown (fun _ => 0) st.pieces =
        "SELECT count(*) AS count_1" ++ b.source 1 ++ Clause.conditionText q ∧
      st.binds = b.binds 1 ++ Clause.conditionFields q ∧
      Pieces.uses (fun _ => 0) st.pieces =
        b.uses 1 ++ Pieces.uses (fun _ => 0) (conditionPieces condition) := by
  intro st
  have hpieces : st.pieces = Projection.count.pieces ++ b.pieces ++ conditionPieces condition := by
    simp [st, pieces, orderPieces, windowPieces]
  have hafter : after (fun _ => 0) Projection.count.pieces = Base.counts 1 := by
    funext seed
    by_cases h : seed = "count"
    · simp [after, Projection.pieces, Piece.kind?, Base.counts, h]
    · simp [after, Projection.pieces, Piece.kind?, Base.counts, h, Ne.symm h]
  have hprojection : shown (fun _ => 0) Projection.count.pieces = "SELECT count(*) AS count_1" := by
    decide +kernel
  have hfields : fields (fun _ => 0) Projection.count.pieces = [] := rfl
  have huses : Pieces.uses (fun _ => 0) Projection.count.pieces = [] := rfl
  rw [binds, hpieces, shown_append, shown_append, fields_append, fields_append, uses_append,
    uses_append, after_append, hafter, (hcondition _).1, (hcondition _).2, hprojection, hfields,
    huses, hunnumbered.uses_eq _ fun _ => 0]
  exact ⟨rfl, rfl, rfl⟩

theorem printed_fetching (hunnumbered : Unnumbered (conditionPieces condition))
    (hcondition : ∀ taken, shown taken (conditionPieces condition) = Clause.conditionText q ∧
      fields taken (conditionPieces condition) = Clause.conditionFields q)
    {names : List Text} (hnames : names.Nodup)
    (hsorts : ∀ s ∈ q.sorts, ∀ c ∈ s.column.toList, IsInert c) (window : Option (Int × Int)) :
    let st : Statement :=
      { projection := .columns names, base := b, condition := condition,
        order := q.sorts.map Clause.ofSortKey, window := window }
    let taken := after (Base.counts 0) b.pieces
    shown (fun _ => 0) st.pieces = "SELECT " ++ columnsText names ++ b.source 0 ++
        Clause.conditionText q ++ orderText q.sorts ++ shown taken (windowPieces window) ∧
      st.binds = b.binds 0 ++ Clause.conditionFields q ++ fields taken (windowPieces window) ∧
      Pieces.uses (fun _ => 0) st.pieces =
        b.uses 0 ++ Pieces.uses (fun _ => 0) (conditionPieces condition) ++
          Pieces.uses taken (windowPieces window) := by
  intro st taken
  obtain ⟨hcolumns, hcolumnsText⟩ := silent_columns hnames
  obtain ⟨horder, horderText⟩ := silent_orderPieces hsorts
  have hzero : (fun _ => 0) = Base.counts 0 := by
    funext seed
    simp [Base.counts]
  have hpieces : st.pieces = (Projection.columns names).pieces ++ b.pieces ++
      conditionPieces condition ++ orderPieces (q.sorts.map Clause.ofSortKey) ++
      windowPieces window := rfl
  rw [binds, hpieces, hzero]
  simp only [shown_append, fields_append, uses_append, after_append, hcolumns.unnumbered.after_eq,
    hunnumbered.after_eq, horder.unnumbered.after_eq, hcolumns.fields_eq, horder.fields_eq,
    hcolumns.uses_eq, horder.uses_eq, hcolumnsText, horderText, hcondition, List.nil_append,
    List.append_nil, hunnumbered.uses_eq _ (Base.counts 0)]
  exact ⟨rfl, rfl, rfl⟩

end

theorem shown_windowPieces (b : Base) (limit offset : Int) :
    let taken := after (Base.counts 0) b.pieces
    shown taken (windowPieces (some (limit, offset))) =
        "\n LIMIT :" ++ b.limitName ++ " OFFSET :" ++ b.offsetName ∧
      fields taken (windowPieces (some (limit, offset))) =
        [(b.limitName, .int limit), (b.offsetName, .int offset)] ∧
      Pieces.uses taken (windowPieces (some (limit, offset))) =
        [(b.limitName, ⟨true, false⟩), (b.offsetName, ⟨true, false⟩)] := by
  intro taken
  have hlimit : numberedName "param" (taken "param" + 1) = b.limitName := b.after_counts 0 1
  have hoffset : numberedName "param" (taken "param" + 1 + 1) = b.offsetName := b.after_counts 0 2
  refine ⟨?_, ?_, ?_⟩
  · rw [← Text.toList_inj]
    simp [windowPieces, number, shown, Piece.shown, after, Piece.kind?, Printed.marker, hlimit,
      hoffset]
  · simp [windowPieces, number, fields, Piece.fields, after, Piece.kind?, hlimit, hoffset]
  · simp [windowPieces, number, Pieces.uses, Piece.uses, after, Piece.kind?, hlimit, hoffset]

theorem nodup_selected {b : Base} (hb : b.columns.Nodup) {fields : List Text}
    (hfields : fields.Nodup) : (selected b fields).Nodup := by
  rw [selected]
  split
  · exact hb
  · exact hfields.filter _

theorem alike {b : Base} (hb : b.columns.Nodup) {q : Query} (hlimit : 0 < q.limit)
    (hsorts : ∀ s ∈ q.sorts, ∀ c ∈ s.column.toList, IsInert c)
    (hcount : q.wheres.count Predicate.placeholder ≤ q.params.length) {fields : List Text}
    (hfields : fields.Nodup) :
    ∃ counted fetched, count b q = .ok counted ∧ fetch b q fields = .ok fetched ∧
      Alike b q fields counted fetched := by
  obtain ⟨condition, hof, hunnumbered, hcondition⟩ := Clause.exists_ofQuery hcount
  have hnames := nodup_selected hb hfields
  obtain ⟨hcountSql, hcountBinds, hcountUses⟩ := printed_counting (b := b) hunnumbered hcondition
  obtain ⟨hfetchSql, hfetchBinds, hfetchUses⟩ := printed_fetching (b := b) hunnumbered hcondition
    hnames hsorts (some (q.limit, q.offset))
  obtain ⟨hallSql, hallBinds, hallUses⟩ := printed_fetching (b := b) hunnumbered hcondition hnames
    hsorts none
  obtain ⟨hwindowText, hwindowFields, hwindowUses⟩ := shown_windowPieces b q.limit q.offset
  rw [hwindowText] at hfetchSql
  rw [hwindowFields] at hfetchBinds
  rw [hwindowUses] at hfetchUses
  have hnamed : (b.uses 0 ++ Pieces.uses (fun _ => 0) (conditionPieces condition)).map Prod.fst =
      (b.binds 0 ++ Clause.conditionFields q).map Prod.fst := by
    rw [List.map_append, List.map_append, Base.uses, map_fst_uses, map_fst_uses, (hcondition _).2]
    rfl
  refine ⟨_, _, by simp only [count, hof]; rfl, by simp only [fetch, hof, if_pos hlimit]; rfl, ?_⟩
  refine
    { parts := ⟨rfl, rfl, rfl⟩
      countSql := (printed_eq _).1.trans hcountSql
      fetchSql := (printed_eq _).1.trans hfetchSql
      countBinds := hcountBinds
      fetchBinds := hfetchBinds
      values := map_snd_fields _ _ _
      source := Base.source_eq
      names := ⟨b.limitName_ne_offsetName, fun _ => Base.gives_of_windowName⟩
      params := fun htakes hgivesLimit hgivesOffset => ?_
      unlimited := ?_ }
  · obtain ⟨-, hbinds, huses⟩ := Base.source_eq htakes
    rw [(printed_eq _).2.1, (printed_eq _).2.1, hcountBinds, hfetchBinds, hbinds, Printed.clash,
      Printed.clash, (printed_eq _).2.2, (printed_eq _).2.2, hcountUses, hfetchUses, huses]
    exact ⟨Base.insertAll_window hgivesLimit hgivesOffset _ _,
      Base.first_window hgivesLimit hgivesOffset hnamed _ _⟩
  · rintro _ rfl
    refine ⟨(printed_eq _).1.trans (hallSql.trans (Text.append_empty _)), fun htakes => ?_⟩
    obtain ⟨-, hbinds, huses⟩ := Base.source_eq htakes
    rw [(printed_eq _).2.1, (printed_eq _).2.1, hcountBinds, hallBinds, hbinds, Printed.clash,
      Printed.clash, (printed_eq _).2.2, (printed_eq _).2.2, hcountUses, hallUses, huses]
    exact ⟨congrArg _ (List.append_nil _), congrArg _ (List.append_nil _)⟩

/-- Count and fetch describe the same rows. Take a query that is compiled from a request, a base
statement whose columns have different names, and fields without repetition. Either the condition
has too few parameters, which cannot happen if no templates are configured, and both calls fail
alike; or both run statements with the same source and the same condition, and with the same
parameters in them. The one that counts has no order and no window. The other one fetches the known
fields in their order, or all columns, in the order of the sort keys, and within the window of the
query. -/
theorem count_and_fetch_alike {cfg : Config} {r : Request} {q : Query}
    (hq : Query.ofDescriptor cfg (.ofRequest cfg r) = .ok q) {b : Base} (hb : b.columns.Nodup)
    {fields : List Text} (hfields : fields.Nodup) :
    (cfg.Untemplated → q.wheres.count Predicate.placeholder = q.params.length) ∧
    selected b fields = (if ∃ f ∈ fields, f ∈ b.columns then fields.filter b.columns.contains
      else b.columns) ∧
    ((q.params.length < q.wheres.count Predicate.placeholder ∧
        count b q = .error .missingParameter ∧ fetch b q fields = .error .missingParameter) ∨
      ∃ counted fetched, count b q = .ok counted ∧ fetch b q fields = .ok fetched ∧
        Alike b q fields counted fetched ∧
        ∀ name dialect db item,
          (executor b name dialect db item).count q = run (.ok counted) db.count ∧
          (executor b name dialect db item).fetch q fields =
            (run (.ok fetched) db.rows).map fun rows => rows.map item) := by
  refine ⟨fun hcfg => ?_, ?_, ?_⟩
  · obtain ⟨p, hp, hwoven⟩ := Predicate.woven hcfg
      (Filter.canonical_ofValue cfg (Filter.clientValue (r.parameters cfg).filters))
    obtain ⟨parts, start, haligned⟩ := hwoven.aligned
    have hfilter : (Descriptor.ofRequest cfg r).filter =
        Filter.ofValue cfg (Filter.clientValue (r.parameters cfg).filters) :=
      Filter.ofInput_eq cfg (r.parameters cfg).filters
    obtain rfl := Except.ok.inj ((Query.ofDescriptor_eq (hfilter ▸ hp)).symm.trans hq)
    exact haligned.count
  · split
    · rename_i hknown
      exact selected_of_known hknown
    · rename_i hunknown
      exact selected_of_unknown fun c hc hmem => hunknown ⟨c, hc, hmem⟩
  · rcases lt_or_ge q.params.length (q.wheres.count Predicate.placeholder) with hlt | hge
    · have hof := Clause.ofQuery_of_lt hlt
      exact .inl ⟨hlt, by simp only [count, hof]; rfl, by simp only [fetch, hof]; rfl⟩
    · have hlimit : 0 < q.limit := by
        rw [(Query.window_of_ofDescriptor hq).1]
        exact Descriptor.one_le_size cfg r
      obtain ⟨counted, fetched, hcount, hfetch, halike⟩ := alike hb hlimit
        (fun s hs => Query.isInert_of_mem_sorts hq hs) hge hfields
      refine .inr ⟨counted, fetched, hcount, hfetch, halike, fun name dialect db item => ?_⟩
      rw [← hcount, ← hfetch]
      exact ⟨rfl, rfl⟩

def constant : Base where
  columns := ["one"]
  body := [.text "SELECT ", .bind (.numbered "param") ⟨.int 1, false⟩, .text " AS one"]

def constantRequest : Request :=
  .mapping [("page", .int 2), ("size", .int 2), ("sort", .text "-one"),
    ("filters", .list [.text "one", .text "=", .int 1])]

theorem constantRequest_compiled :
    Query.ofDescriptor {} (Descriptor.ofRequest {} constantRequest) =
      .ok ⟨["one", "=", "?"], [.int 1], 2, 2, [⟨"one", .descending⟩]⟩ := by
  rfl

/-- The numbers of the window follow those of the base statement. -/
theorem count_and_fetch_alike_numbered :
    let q : Query := ⟨["one", "=", "?"], [.int 1], 2, 2, [⟨"one", .descending⟩]⟩
    Query.ofDescriptor {} (Descriptor.ofRequest {} constantRequest) = .ok q ∧
      constant.columns.Nodup ∧ (["one", "two"] : List Text).Nodup ∧
      ∃ counted fetched, count constant q = .ok counted ∧
        fetch constant q ["one", "two"] = .ok fetched ∧
        counted.printed.sql = "SELECT count(*) AS count_1 \nFROM (SELECT :param_1 AS one) AS s " ++
          "\nWHERE one = :p0" ∧
        fetched.printed.sql = "SELECT s.one \nFROM (SELECT :param_1 AS one) AS s " ++
          "\nWHERE one = :p0 ORDER BY one DESC\n LIMIT :param_2 OFFSET :param_3" ∧
        fetched.printed.params = counted.printed.params ++
          ([("param_2", .int 2), ("param_3", .int 2)] : Fields) := by
  intro q
  have hcolumns : constant.columns.Nodup := by decide
  have hfields : (["one", "two"] : List Text).Nodup := by decide
  obtain ⟨-, -, hpair⟩ := count_and_fetch_alike constantRequest_compiled hcolumns hfields
  rcases hpair with ⟨hfew, -⟩ | ⟨counted, fetched, hcount, hfetch, halike, -⟩
  · exact absurd hfew (by decide)
  · refine ⟨constantRequest_compiled, hcolumns, hfields, counted, fetched, hcount, hfetch, ?_, ?_,
      ?_⟩
    · exact halike.countSql.trans (by decide +kernel)
    · exact halike.fetchSql.trans (by decide +kernel)
    · have htakes : ¬ constant.Takes "count" := by
        simp [Base.Takes, constant, Piece.kind?]
      have hgives (name : Text) : ¬ constant.Gives name := by
        simp [Base.Gives, constant, Piece.given?]
      exact (halike.params htakes (hgives _) (hgives _)).1

def plentiful : Base where
  columns := ["id"]
  body := [.text "SELECT items.id AS id \nFROM items \nWHERE items.count > ",
    .bind (.numbered "count") ⟨.int 5, false⟩]

def limited : Base where
  columns := ["id"]
  body := [.text "SELECT items.id AS id \nFROM items \nWHERE items.count > ",
    .bind (.given "param_1") ⟨.int 5, false⟩]

/-- Settings whose template puts a placeholder in the place of a column. -/
def gapConfig : Config := { fieldWrapper := "%.0s?" }

/-- Where count and fetch differ. The parameter of a base statement has another name in the one than
in the other, a name that the base statement gives keeps its rows from being fetched though they
are counted, and a template asks for more parameters than there are. -/
theorem counted_and_fetched_apart :
    Query.ofDescriptor {} (Descriptor.ofRequest {} .none) = .ok {} ∧
    (∃ counted fetched, count plentiful {} = .ok counted ∧ fetch plentiful {} [] = .ok fetched ∧
      counted.printed.sql = "SELECT count(*) AS count_1 \nFROM (SELECT items.id AS id " ++
        "\nFROM items \nWHERE items.count > :count_2) AS s" ∧
      fetched.printed.sql = "SELECT s.id \nFROM (SELECT items.id AS id " ++
        "\nFROM items \nWHERE items.count > :count_1) AS s\n LIMIT :param_1 OFFSET :param_2") ∧
    (∃ counted fetched, count limited {} = .ok counted ∧ fetch limited {} [] = .ok fetched ∧
      counted.printed.clash = none ∧ fetched.printed.clash = some (.numbered "param_1")) ∧
    ∃ q, Query.ofDescriptor gapConfig (Descriptor.ofRequest gapConfig
        (.mapping [("filters", .list [.text "name", .text "like", .text "x"])])) = .ok q ∧
      count plentiful q = .error .missingParameter ∧
      fetch plentiful q [] = .error .missingParameter := by
  refine ⟨rfl, ⟨_, _, rfl, rfl, by decide +kernel, by decide +kernel⟩,
    ⟨_, _, rfl, rfl, by decide +kernel, by decide +kernel⟩,
    ⟨["?", "LIKE", "?"], [.text "%x%"], 10, 0, []⟩, rfl, ?_⟩
  have hplace : Clause.ofQuery ⟨["?", "LIKE", "?"], [.text "%x%"], 10, 0, []⟩ =
      .error .missingParameter := Clause.ofQuery_of_lt (by decide)
  simp only [count, fetch, hplace]
  exact ⟨rfl, rfl⟩

end Statement

end Sql

end Paging
