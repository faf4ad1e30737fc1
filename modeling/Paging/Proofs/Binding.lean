import Paging.Proofs.Alignment
import Paging.Proofs.Stored
import Paging.Proofs.Vocabulary
import Paging.Proofs.WholeNumber
import Paging.Proofs.Wording
import Paging.Sql.Statement

/-! The condition of a query as a clause. Whatever stands in its tokens, a parameter is declared at
the placeholders and nowhere else, since a backslash stands in front of any other colon; printed,
the clause is the condition again with the parameters in place. -/
namespace Paging.Sql
namespace Clause

inductive Item
  | token (t : Text)
  | param (name : Text) (b : Bind)

namespace Item

def written : Item → Text
  | .token t => escapeColons t
  | .param name _ => ":" ++ name

def printed : Item → Text
  | .token t => t
  | .param name b => Printed.marker name b

def parts : Item → List Part
  | .token t => t.toList.map .char
  | .param name b => [.bind name b]

def binds : Item → List (Text × Bind)
  | .token _ => []
  | .param name b => [(name, b)]

end Item

def items (index : ℕ) : List Text → List Value → List Item
  | [], _ => []
  | t :: ts, [] => .token t :: items index ts []
  | t :: ts, v :: vs =>
    if t = Predicate.placeholder then
      .param (paramName index) (.ofValue v) :: items (index + 1) ts vs
    else .token t :: items index ts (v :: vs)

def named (index : ℕ) (params : List Value) : List (Text × Bind) :=
  (params.zipIdx index).map fun p => (paramName p.2, .ofValue p.1)

@[simp] theorem named_nil (index : ℕ) : named index [] = [] := rfl

@[simp] theorem named_cons (index : ℕ) (v : Value) (vs : List Value) :
    named index (v :: vs) = (paramName index, .ofValue v) :: named (index + 1) vs := rfl

theorem map_fst_named (index : ℕ) (params : List Value) :
    (named index params).map Prod.fst = (List.range' index params.length).map paramName := by
  rw [named, List.map_map, ← List.zipIdx_map_snd index params, List.map_map]
  rfl

/-- With a value for each placeholder, nothing runs out and nothing is left over. -/
theorem place_eq (index : ℕ) {tokens : List Text} {params : List Value}
    (h : tokens.count Predicate.placeholder = params.length) :
    place index tokens params =
      .ok ((items index tokens params).map Item.written, named index params) := by
  induction tokens generalizing index params with
  | nil =>
    have hparams : params = [] := List.length_eq_zero_iff.mp h.symm
    subst hparams
    rfl
  | cons t ts ih =>
    by_cases ht : t = Predicate.placeholder
    · subst ht
      cases params with
      | nil => simp at h
      | cons v vs =>
        have hcount : ts.count Predicate.placeholder = vs.length := by simpa using h
        have hrest := ih (index + 1) hcount
        simp [place, items, hrest, Except.map, Item.written]
    · have hcount : ts.count Predicate.placeholder = params.length := by simpa [ht] using h
      have hrest := ih index hcount
      cases params <;> simp [place, items, ht, hrest, Except.map, Item.written]

theorem flatMap_binds_items (index : ℕ) {tokens : List Text} {params : List Value}
    (h : tokens.count Predicate.placeholder = params.length) :
    (items index tokens params).flatMap Item.binds = named index params := by
  induction tokens generalizing index params with
  | nil =>
    have hparams : params = [] := List.length_eq_zero_iff.mp h.symm
    subst hparams
    rfl
  | cons t ts ih =>
    by_cases ht : t = Predicate.placeholder
    · subst ht
      cases params with
      | nil => simp at h
      | cons v vs =>
        have hcount : ts.count Predicate.placeholder = vs.length := by simpa using h
        have hrest := ih (index + 1) hcount
        simp [items, hrest, Item.binds]
    · have hcount : ts.count Predicate.placeholder = params.length := by simpa [ht] using h
      have hrest := ih index hcount
      cases params <;> simpa [items, ht, Item.binds] using hrest

/-! ### Names -/

def IsName (name : Text) : Prop := name ≠ "" ∧ ∀ c ∈ name.toList, Text.isWord c = true

theorem isWord_of_isDigit {c : Char} (hc : c.isDigit = true) : Text.isWord c = true := by
  have hbounds := Decimal.toNat_of_isDigit hc
  have hascii : c.toNat < 128 := by omega
  simp [Text.isWord, hascii, Text.isAsciiWord, Letter.isAlphanum, Char.isAlphanum, hc]

@[simp] theorem toList_paramName (i : ℕ) :
    (paramName i).toList = .char 'p' :: letters (Nat.toDigits 10 i) := by
  simp [paramName, Nat.repr]

theorem isName_paramName (i : ℕ) : IsName (paramName i) := by
  constructor
  · rw [ne_eq, ← Text.toList_inj, toList_paramName]
    simp
  · intro c hc
    rw [toList_paramName] at hc
    rcases List.mem_cons.mp hc with rfl | hc
    · decide
    · obtain ⟨d, hd, rfl⟩ := List.mem_map.mp hc
      exact isWord_of_isDigit (Json.isDigits_toDigits i d hd)

theorem paramName_inj {i j : ℕ} (h : paramName i = paramName j) : i = j := by
  have hdigits : Nat.toDigits 10 i = Nat.toDigits 10 j := by
    refine Text.letters_injective ?_
    simpa [← Text.toList_inj] using h
  calc
    i = Nat.ofDigitChars 10 (Nat.toDigits 10 i) 0 := Nat.ofDigitChars_ten_toDigits.symm
    _ = j := by rw [hdigits, Nat.ofDigitChars_ten_toDigits]

theorem isName_of_mem_named {index : ℕ} {params : List Value} {b : Text × Bind}
    (h : b ∈ named index params) : IsName b.1 := by
  obtain ⟨p, -, rfl⟩ := List.mem_map.mp h
  exact isName_paramName p.2

theorem nodup_named (index : ℕ) (params : List Value) :
    ((named index params).map Prod.fst).Nodup := by
  rw [map_fst_named]
  have hindices : (List.range' index params.length).Nodup := List.nodup_range'
  exact List.Pairwise.map paramName (fun _ _ hne h => hne (paramName_inj h)) hindices

/-! ### Reading -/

def Ends (r : List Letter) : Prop := r = [] ∨ ∃ s, r = .char ' ' :: s

theorem ends_spaced (ts : List Text) : Ends (spaced ts) := by
  cases ts with
  | nil => exact .inl rfl
  | cons t ts => exact .inr ⟨_, spaced_cons t ts⟩

theorem Ends.takeWhile_eq_nil {r : List Letter} (hr : Ends r) {p : Letter → Bool}
    (hp : p ' ' = false) : r.takeWhile p = [] := by
  rcases hr with rfl | ⟨s, rfl⟩
  · rfl
  · simp [hp]

theorem Ends.head?_ne {r : List Letter} (hr : Ends r) : r.head? ≠ some (.char ':') := by
  rcases hr with rfl | ⟨s, rfl⟩ <;> simp

/-- Some characters with a backslash in front of each colon. -/
def guarded (s : List Letter) : List Letter :=
  s.flatMap fun (c : Letter) => if c = ':' then ['\\', ':'] else [c]

theorem toList_escapeColons (t : Text) : (escapeColons t).toList = guarded t.toList := by
  simp [escapeColons, guarded]

@[simp] theorem guarded_nil : guarded [] = [] := rfl

theorem guarded_colon (s : List Letter) :
    guarded (.char ':' :: s) = .char '\\' :: .char ':' :: guarded s := by
  simp [guarded]

theorem guarded_cons {c : Letter} (hc : c ≠ ':') (s : List Letter) :
    guarded (c :: s) = c :: guarded s := by
  simp [guarded, hc]

theorem guarded_eq_self {s : List Letter} (hs : .char ':' ∉ s) : guarded s = s := by
  induction s with
  | nil => rfl
  | cons c s ih =>
    obtain ⟨hc, hs⟩ := not_or.mp (List.mem_cons.not.mp hs)
    rw [guarded_cons (Ne.symm hc), ih hs]

theorem isNameChar_of_isWord {c : Letter} (h : Text.isWord c = true) : isNameChar c = true := by
  simp [isNameChar, h]

theorem IsName.toList_ne {name : Text} (h : IsName name) : name.toList ≠ [] :=
  Text.toList_eq_nil_iff.not.mpr h.1

theorem IsName.colon_notMem {name : Text} (h : IsName name) : .char ':' ∉ name.toList :=
  fun hmem => absurd (h.2 ':' hmem) (by decide)

theorem declared_space (before : Option Letter) (s : List Letter) :
    declared before (.char ' ' :: s) = declared (some (.char ' ')) s := by
  simp [declared]

theorem declared_guarded {r : List Letter} (hr : Ends r) (s : List Letter)
    (before : Option Letter) :
    declared before (guarded s ++ r) = declared (some (.char ' ')) r := by
  induction s generalizing before with
  | nil =>
    rcases hr with rfl | ⟨s, rfl⟩
    · rfl
    · simp [declared_space]
  | cons c s ih =>
    by_cases hc : c = ':'
    · subst hc
      simpa [guarded_colon, declared, mayDeclare] using ih (some (.char ':'))
    · simpa [guarded_cons hc, declared, hc] using ih (some c)

theorem declared_name {name : Text} (hname : IsName name) {r : List Letter} (hr : Ends r) :
    declared (some (.char ' ')) (.char ':' :: (name.toList ++ r)) =
      name :: declared (some (.char ' ')) r := by
  have hword : (name.toList ++ r).takeWhile Text.isWord = name.toList := by
    rw [List.takeWhile_append_of_pos hname.2, hr.takeWhile_eq_nil (by decide), List.append_nil]
  have hfound : declaredName? (name.toList ++ r) = some name := by
    simp [declaredName?, hword, hr.head?_ne, hname.toList_ne]
  have hmay : mayDeclare (some (.char ' ')) = true := by decide
  have hrest := declared_guarded hr name.toList (some (.char ':'))
  rw [guarded_eq_self hname.colon_notMem] at hrest
  rw [declared, if_pos ⟨rfl, hmay⟩, hfound, hrest]
  rfl

theorem head?_dropWhile_guarded {r : List Letter} (hr : Ends r) (s : List Letter) :
    ((guarded s ++ r).dropWhile isNameChar).head? ≠ some (.char ':') := by
  induction s with
  | nil =>
    rcases hr with rfl | ⟨s, rfl⟩
    · simp
    · have hspace : isNameChar ' ' = false := by decide
      simp [hspace]
  | cons c s ih =>
    by_cases hc : c = ':'
    · subst hc
      have hback : isNameChar '\\' = false := by decide
      simp [guarded_colon, hback]
    · by_cases hname : isNameChar c = true
      · simpa [guarded_cons hc, hname] using ih
      · simp [guarded_cons hc, hname, hc]

variable (clause : Clause)

theorem partsFrom_space (before : Option Letter) (s : List Letter) :
    clause.partsFrom 0 before (.char ' ' :: s) =
      .char ' ' :: clause.partsFrom 0 (some (.char ' ')) s := by
  simp [partsFrom]

/-- A text with a backslash in front of each colon is printed as it was before. -/
theorem partsFrom_guarded {r : List Letter} (hr : Ends r) (s : List Letter)
    (before : Option Letter) :
    clause.partsFrom 0 before (guarded s ++ r) =
      s.map .char ++ clause.partsFrom 0 (some (.char ' ')) r := by
  induction s generalizing before with
  | nil =>
    rcases hr with rfl | ⟨s, rfl⟩
    · simp [partsFrom]
    · simp [partsFrom_space]
  | cons c s ih =>
    by_cases hc : c = ':'
    · subst hc
      have hescapes : escapesColon (.char ':' :: (guarded s ++ r)) = true := by
        simpa [escapesColon] using head?_dropWhile_guarded hr s
      have hmay : mayPrint (some (.char '\\')) = false := by decide
      rw [guarded_colon, List.cons_append, List.cons_append, partsFrom, if_neg (by simp),
        if_pos ⟨rfl, hescapes⟩, partsFrom, if_neg (by simp [hmay]), if_neg (by simp), ih]
      rfl
    · -- A backslash of the text itself stands in front of a colon only if that has one of its own.
      have hescapes : escapesColon (guarded s ++ r) = false := by
        cases s with
        | nil => rcases hr with rfl | ⟨s, rfl⟩ <;> simp [escapesColon]
        | cons d s =>
          by_cases hd : d = ':'
          · simp [hd, guarded_colon, escapesColon]
          · simp [guarded_cons hd, escapesColon, hd]
      rw [guarded_cons hc, List.cons_append, partsFrom, if_neg (by simp [hc]),
        if_neg (by simp [hescapes]), ih]
      rfl

theorem partsFrom_skip {r : List Letter} (hr : Ends r) (s : List Letter) (before : Option Letter) :
    clause.partsFrom s.length before (s ++ r) = clause.partsFrom 0 (some (.char ' ')) r := by
  induction s generalizing before with
  | nil =>
    rcases hr with rfl | ⟨s, rfl⟩
    · simp [partsFrom]
    · simp [partsFrom_space]
  | cons c s ih => exact ih (some c)

/-- A declared name behind a colon is printed as its parameter. -/
theorem partsFrom_name {name : Text} (hname : IsName name) {b : Bind}
    (hb : clause.bind? name = some b) {r : List Letter} (hr : Ends r) :
    clause.partsFrom 0 (some (.char ' ')) (.char ':' :: (name.toList ++ r)) =
      .bind name b :: clause.partsFrom 0 (some (.char ' ')) r := by
  have hchars : ∀ c ∈ name.toList, isNameChar c = true := fun c hc =>
    isNameChar_of_isWord (hname.2 c hc)
  have htake : (name.toList ++ r).takeWhile isNameChar = name.toList := by
    rw [List.takeWhile_append_of_pos hchars, hr.takeWhile_eq_nil (by decide), List.append_nil]
  have hfound : printedName? (name.toList ++ r) = some name.toList := by
    simp [printedName?, htake, hr.head?_ne, hname.toList_ne]
  have hmay : mayPrint (some (.char ' ')) = true := by decide
  rw [partsFrom, if_pos ⟨rfl, hmay⟩, hfound]
  simp only [Option.bind_some, Text.ofList_toList, hb, Option.map_some]
  rw [partsFrom_skip clause hr]

/-! ### The clause of a condition -/

def Item.Declared (clause : Clause) (i : Item) : Prop :=
  ∀ b ∈ i.binds, IsName b.1 ∧ clause.bind? b.1 = some b.2

theorem declared_items {is : List Item} (h : ∀ i ∈ is, ∀ b ∈ i.binds, IsName b.1)
    (before : Option Letter) :
    declared before (spaced (is.map Item.written)) = (is.flatMap Item.binds).map Prod.fst := by
  induction is generalizing before with
  | nil => rfl
  | cons i is ih =>
    obtain ⟨hi, his⟩ := List.forall_mem_cons.mp h
    have hends := ends_spaced (is.map Item.written)
    rw [List.map_cons, spaced_cons, declared_space, List.flatMap_cons, List.map_append]
    cases i with
    | token t =>
      rw [Item.written, toList_escapeColons, declared_guarded hends, ih his]
      rfl
    | param name b =>
      have hname : IsName name := hi (name, b) List.mem_cons_self
      have hwritten : (Item.param name b).written.toList = .char ':' :: name.toList := by
        simp [Item.written]
      rw [hwritten, List.cons_append, declared_name hname hends, ih his]
      rfl

theorem partsFrom_items {is : List Item} (h : ∀ i ∈ is, i.Declared clause)
    (before : Option Letter) :
    clause.partsFrom 0 before (spaced (is.map Item.written)) =
      is.flatMap fun i => .char ' ' :: i.parts := by
  induction is generalizing before with
  | nil => simp [partsFrom]
  | cons i is ih =>
    obtain ⟨hi, his⟩ := List.forall_mem_cons.mp h
    have hends := ends_spaced (is.map Item.written)
    rw [List.map_cons, spaced_cons, partsFrom_space, List.flatMap_cons]
    cases i with
    | token t =>
      rw [Item.written, toList_escapeColons, partsFrom_guarded clause hends, ih his]
      rfl
    | param name b =>
      obtain ⟨hname, hb⟩ := hi (name, b) List.mem_cons_self
      have hwritten : (Item.param name b).written.toList = .char ':' :: name.toList := by
        simp [Item.written]
      rw [hwritten, List.cons_append, partsFrom_name clause hname hb hends, ih his]
      rfl

theorem length_items (index : ℕ) (tokens : List Text) (params : List Value) :
    (items index tokens params).length = tokens.length := by
  induction tokens generalizing index params with
  | nil => cases params <;> rfl
  | cons t ts ih =>
    cases params with
    | nil => simp [items, ih]
    | cons v vs => by_cases ht : t = Predicate.placeholder <;> simp [items, ht, ih]

theorem lookup_of_mem {α : Type} {table : List (Text × α)} (h : (table.map Prod.fst).Nodup)
    {k : Text} {a : α} (ha : (k, a) ∈ table) : table.lookup k = some a := by
  induction table with
  | nil => cases ha
  | cons b table ih =>
    obtain ⟨hb, htable⟩ := List.nodup_cons.mp h
    rcases List.mem_cons.mp ha with rfl | ha
    · simp
    · have hk : k ∈ table.map Prod.fst := List.mem_map_of_mem ha
      have hne : (k == b.1) = false := by
        simp only [beq_eq_false_iff_ne, ne_eq]
        rintro rfl
        exact hb hk
      rw [List.lookup_cons, hne]
      exact ih htable ha

theorem declared_none (s : List Letter) : declared none s = declared (some (.char ' ')) s := by
  have hmay : mayDeclare none = mayDeclare (some (.char ' ')) := by decide
  cases s <;> simp [declared, hmay]

theorem partsFrom_none (s : List Letter) :
    clause.partsFrom 0 none s = clause.partsFrom 0 (some (.char ' ')) s := by
  have hmay : mayPrint none = mayPrint (some (.char ' ')) := by decide
  cases s <;> simp [partsFrom, hmay]

end Clause

namespace Part

def piece : Part → Piece
  | .char c => .text (.singleton c)
  | .bind name b => .bind (.given name) b

def shown : Part → List Letter
  | .char c => [c]
  | .bind name b => (Printed.marker name b).toList

def fields : Part → Fields
  | .char _ => []
  | .bind name b => [(name, b.value)]

end Part

theorem Clause.pieces_eq (clause : Clause) : clause.pieces = clause.parts.map Part.piece :=
  List.map_congr_left fun part _ => by cases part <;> rfl

/-- Parts are printed one behind the other, and so are their parameters if no name comes twice. -/
theorem print_parts (parts : List Part) (p : Printed)
    (h : ((p.params ++ parts.flatMap Part.fields).map Prod.fst).Nodup) :
    ((parts.map Part.piece).foldl Printed.add p).sql.toList =
        p.sql.toList ++ parts.flatMap Part.shown ∧
      ((parts.map Part.piece).foldl Printed.add p).params =
        p.params ++ parts.flatMap Part.fields := by
  induction parts generalizing p with
  | nil => simp
  | cons part parts ih =>
    cases part with
    | char c =>
      obtain ⟨hsql, hparams⟩ := ih (p.write (.singleton c)) h
      rw [List.map_cons, List.foldl_cons]
      refine ⟨hsql.trans ?_, hparams⟩
      simp [Printed.write, Part.shown]
    | bind name b =>
      have hinsert : p.params.insert name b.value = p.params ++ [(name, b.value)] :=
        Json.insert_of_notMem b.value (Json.notMem_of_nodup_append h)
      set next := p.add (.bind (.given name) b)
      have hnext : next.sql = p.sql ++ Printed.marker name b ∧
          next.params = p.params ++ [(name, b.value)] := ⟨rfl, hinsert⟩
      obtain ⟨hsql, hparams⟩ := ih next (by simpa [Part.fields, hnext.2] using h)
      rw [List.map_cons, List.foldl_cons, Part.piece]
      refine ⟨hsql.trans ?_, hparams.trans ?_⟩
      · simp [hnext.1, Part.shown]
      · simp [hnext.2, Part.fields]

namespace Clause

def ofItems (is : List Item) : Clause :=
  ⟨Text.intercalate " " (is.map Item.written), is.flatMap Item.binds⟩

/-- Every parameter has a name, and no two have the same. -/
structure Named (is : List Item) : Prop where
  name : ∀ b ∈ is.flatMap Item.binds, IsName b.1
  nodup : ((is.flatMap Item.binds).map Prod.fst).Nodup

variable {i : Item} {is : List Item}

theorem Named.declared (h : Named is) : ∀ i ∈ is, i.Declared (ofItems is) := by
  intro i hi b hb
  have hmem : b ∈ is.flatMap Item.binds := List.mem_flatMap.mpr ⟨i, hi, hb⟩
  have hlookup : (ofItems is).binds.lookup b.1 = some b.2 := lookup_of_mem h.nodup hmem
  exact ⟨h.name b hmem, by rw [bind?, hlookup]⟩

theorem cons_ofItems (i : Item) (is : List Item) :
    .char ' ' :: (ofItems (i :: is)).text.toList = spaced ((i :: is).map Item.written) :=
  cons_intercalate i.written (is.map Item.written)

theorem declared_ofItems (h : Named (i :: is)) :
    Clause.declared none (ofItems (i :: is)).text.toList =
      ((i :: is).flatMap Item.binds).map Prod.fst := by
  have hnames := declared_items (fun j hj b hb => (h.declared j hj b hb).1) none
  rwa [← cons_ofItems, declared_space, ← declared_none] at hnames

theorem parts_ofItems (h : Named (i :: is)) :
    .char ' ' :: (ofItems (i :: is)).parts = (i :: is).flatMap fun j => .char ' ' :: j.parts := by
  rw [← partsFrom_items _ h.declared none, ← cons_ofItems, partsFrom_space, parts, partsFrom_none]

theorem fields_ofItems (h : Named (i :: is)) :
    (ofItems (i :: is)).parts.flatMap Part.fields =
      ((i :: is).flatMap Item.binds).map fun b => (b.1, b.2.value) := by
  have hitem (j : Item) : (Part.char ' ' :: j.parts).flatMap Part.fields =
      j.binds.map fun b => (b.1, b.2.value) := by
    cases j with
    | token t => simp [Item.parts, Item.binds, Part.fields, List.flatMap_map]
    | param name b => rfl
  have hparts := congrArg (List.flatMap Part.fields) (parts_ofItems h)
  rw [List.flatMap_assoc, funext hitem, ← List.map_flatMap] at hparts
  exact hparts

theorem shown_ofItems (h : Named (i :: is)) :
    (ofItems (i :: is)).parts.flatMap Part.shown =
      (Text.intercalate " " ((i :: is).map Item.printed)).toList := by
  have hitem (j : Item) : (Part.char ' ' :: j.parts).flatMap Part.shown =
      .char ' ' :: j.printed.toList := by
    cases j with
    | token t => simp [Item.parts, Item.printed, Part.shown, List.flatMap_map]
    | param name b => simp [Item.parts, Item.printed, Part.shown]
  have hparts := congrArg (List.flatMap Part.shown) (parts_ofItems h)
  have hspaced := cons_intercalate i.printed (is.map Item.printed)
  rw [List.flatMap_assoc, funext hitem] at hparts
  rw [spaced, ← List.map_cons, List.flatMap_map] at hspaced
  exact List.cons.inj (hparts.trans hspaced.symm) |>.2

theorem printed_ofItems (h : Named (i :: is)) :
    (ofItems (i :: is)).printed.sql = Text.intercalate " " ((i :: is).map Item.printed) ∧
      (ofItems (i :: is)).printed.params =
        ((i :: is).flatMap Item.binds).map fun b => (b.1, b.2.value) := by
  have hfields := fields_ofItems h
  have hnodup : (((ofItems (i :: is)).parts.flatMap Part.fields).map Prod.fst).Nodup := by
    rw [hfields, List.map_map]
    exact h.nodup
  obtain ⟨hsql, hparams⟩ := print_parts (ofItems (i :: is)).parts {} hnodup
  rw [← pieces_eq] at hsql hparams
  constructor
  · rw [← Text.toList_inj, ← shown_ofItems h]
    exact hsql
  · exact hparams.trans hfields

/-- A clause that says what a query says. -/
structure Renders (q : Query) (clause : Clause) : Prop where
  /-- Each parameter is declared once, in the order of the placeholders, and nothing else is. -/
  declared : declared none clause.text.toList = (List.range q.params.length).map paramName
  /-- The parameters have the values of the query in their order. -/
  binds : clause.binds = q.params.zipIdx.map fun p => (paramName p.2, .ofValue p.1)
  /-- In print the parameters stand in place of the placeholders, and nothing else is changed. -/
  sql : clause.printed.sql = Text.intercalate " " ((items 0 q.wheres q.params).map Item.printed)
  params : clause.printed.params =
    q.params.zipIdx.map fun p => (paramName p.2, (Bind.ofValue p.1).value)

/-- A condition with a value for each placeholder has a clause, which says what the query says. -/
theorem renders_of_count {q : Query} (hne : q.wheres ≠ [])
    (hcount : q.wheres.count Predicate.placeholder = q.params.length) :
    ∃ clause, ofQuery q = .ok (some clause) ∧ Renders q clause := by
  have hplace := place_eq 0 hcount
  have hbinds := flatMap_binds_items 0 hcount
  have hlength := length_items 0 q.wheres q.params
  obtain ⟨i, is, his⟩ : ∃ i is, items 0 q.wheres q.params = i :: is := by
    refine List.exists_cons_of_ne_nil fun hnil => hne (List.length_eq_zero_iff.mp ?_)
    rw [← hlength, hnil]
    rfl
  rw [his] at hplace hbinds
  have hnamed : Named (i :: is) := by
    constructor
    · intro b hb
      exact isName_of_mem_named (hbinds ▸ hb)
    · rw [hbinds]
      exact nodup_named 0 q.params
  obtain ⟨hsql, hparams⟩ := printed_ofItems hnamed
  refine ⟨ofItems (i :: is), ?_, ?_, ?_, ?_, ?_⟩
  · have hempty : q.wheres.isEmpty = false := by simpa using hne
    simp [ofQuery, hempty, hplace, Except.map, ofItems, hbinds]
  · rw [declared_ofItems hnamed, hbinds, map_fst_named, List.range_eq_range']
  · exact hbinds
  · rw [hsql, his]
  · rw [hparams, hbinds, named, List.map_map]
    rfl

/-- Whatever a client sends, its condition has a value for each placeholder. If there is a condition
at all it becomes a clause that declares the parameters, one for each value, and nothing else, with
the values in their order; in print it is the condition with the parameters in place. -/
theorem binding_of_client_input (config : Config) (hf : config.fieldWrapper = "")
    (hv : config.valueWrapper = "") (dialect : Option String) (r : Request) :
    let cfg := config.resolve dialect
    ∃ q, Query.ofDescriptor cfg (Descriptor.ofRequest cfg r) = .ok q ∧
      q.wheres.count ("?" : Text) = q.params.length ∧
      (q.wheres = [] → ofQuery q = .ok none) ∧
      (q.wheres ≠ [] → ∃ clause, ofQuery q = .ok (some clause) ∧ Renders q clause) := by
  intro cfg
  have hcfg : cfg.Untemplated := config.untemplated_resolve dialect hf hv
  have hfilter : (Descriptor.ofRequest cfg r).filter =
      Filter.ofValue cfg (Filter.clientValue (r.parameters cfg).filters) :=
    Filter.ofInput_eq cfg (r.parameters cfg).filters
  obtain ⟨p, hp, hwoven⟩ := Predicate.woven hcfg
    (hfilter ▸ Filter.canonical_ofValue cfg (Filter.clientValue (r.parameters cfg).filters))
  obtain ⟨parts, start, haligned⟩ := hwoven.aligned
  refine ⟨_, Query.ofDescriptor_eq hp, haligned.count, fun hnil => ?_, fun hne => ?_⟩
  · have htokens : p.tokens = [] := hnil
    simp [ofQuery, htokens]
  · exact renders_of_count hne haligned.count

def colonRequest : Request :=
  .mapping [("filters", .list
    [.list [.text "a:p0 \\:p1::int ?", .text "contains", .text "x"], .list [.text "and"],
      .list [.text "?", .text "in", .list [.int 1, .int 2]]])]

theorem colonRequest_compiled :
    (Query.ofDescriptor (({} : Config).resolve (some "postgresql"))
      (Descriptor.ofRequest (({} : Config).resolve (some "postgresql")) colonRequest)).toOption.map
        (fun q => (q.wheres, q.params)) =
      some ((["(", "LOWER((\"a:p0 \\:p1::int ?\")::text)", "LIKE", "?", "ESCAPE '\\'", "AND",
        "\"?\"", "IN", "?", ")"] : List Text), [Value.text "%x%", .list [.int 1, .int 2]]) := by
  rfl

theorem binding_of_client_input_colon :
    ({} : Config).fieldWrapper = "" ∧ ({} : Config).valueWrapper = "" ∧
      ∃ q clause, Query.ofDescriptor (({} : Config).resolve (some "postgresql"))
          (Descriptor.ofRequest (({} : Config).resolve (some "postgresql")) colonRequest) = .ok q ∧
        ofQuery q = .ok (some clause) ∧
        Clause.declared none clause.text.toList = (["p0", "p1"] : List Text) ∧
        clause.printed.sql = "( LOWER((\"a:p0 \\:p1::int ?\")::text) LIKE :p0 ESCAPE '\\' AND " ++
          "\"?\" IN (__[POSTCOMPILE_p1]) )" ∧
        clause.printed.params =
          ([("p0", .text "%x%"), ("p1", .list [.int 1, .int 2])] : Fields) := by
  obtain ⟨q, hq, -, -, hclause⟩ :=
    binding_of_client_input {} rfl rfl (some "postgresql") colonRequest
  have hwritten := colonRequest_compiled
  rw [hq] at hwritten
  obtain ⟨hwheres, hparams⟩ := Prod.mk.inj (Option.some.inj hwritten)
  obtain ⟨clause, hof, hrenders⟩ := hclause (by rw [hwheres]; simp)
  refine ⟨rfl, rfl, q, clause, hq, hof, ?_, ?_, ?_⟩
  · rw [hrenders.declared, hparams]
    decide
  · rw [hrenders.sql, hwheres, hparams]
    decide +kernel
  · rw [hrenders.params, hparams]
    rfl

end Clause
end Paging.Sql
