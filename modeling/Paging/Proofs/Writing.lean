import Paging.Proofs.WellFormed

/-! Writing filters as nested lists. However a well-formed filter is written, with any spelling of
its operators and connectors, reading gives the filter back, unless comparisons stand too deep. -/
namespace Paging

/-- A comparison that can be written: it has a column and an operator that is no pattern match, and
declares nothing. -/
structure Comparison.IsWritable (c : Comparison) : Prop where
  column : c.column ≠ ""
  operator : ∃ o : FilterOperator, c.operator = o.text ∧ o.family ≠ .pattern
  suffix : c.suffix = ""

/-- The lists that a comparison is written as: the column, a spelling of the operator and the value,
or the column and the value alone where the operator goes without saying. -/
inductive Comparison.WrittenAs (c : Comparison) : List Value → Prop
  | spelled (op : Text) (o : FilterOperator) (h : Spelling.read? op = some (.comparison o))
      (ho : c.operator = o.text) : c.WrittenAs [.text c.column, .text op, c.value]
  | equal (ho : c.operator = "=") (hv : c.value ≠ .null) : c.WrittenAs [.text c.column, c.value]
  | null (ho : c.operator = "IS") (hv : c.value = .null) : c.WrittenAs [.text c.column, c.value]

namespace Filter

mutual

/-- The lists that a filter is written as: a connector as one text that spells it, a group as the
lists of its parts. -/
def WrittenAs : Filter → List Value → Prop
  | .comparison c, xs => c.WrittenAs xs
  | .connector symbol, xs =>
    ∃ (s : Text) (k : Connector), xs = [.text s] ∧ Connector.read? s = some k ∧ symbol = k.text
  | .group children, xs => AllWrittenAs children xs

def AllWrittenAs : List Filter → List Value → Prop
  | [], xs => xs = []
  | f :: fs, xs => ∃ ys r, xs = .list ys :: r ∧ f.WrittenAs ys ∧ AllWrittenAs fs r

end

mutual

/-- One way to write a filter: every operator by its own name. -/
def write : Filter → List Value
  | .comparison c => [.text c.column, .text c.operator, c.value]
  | .connector symbol => [.text symbol]
  | .group children => writeAll children

def writeAll : List Filter → List Value
  | [] => []
  | f :: fs => .list f.write :: writeAll fs

end

theorem Spelling.read?_text {o : FilterOperator} (h : o.family ≠ .pattern) :
    Spelling.read? o.text = some (.comparison o) := by
  cases o <;> first | decide | exact absurd rfl h

theorem Connector.read?_text (k : Connector) : Connector.read? k.text = some k := by
  cases k <;> decide

mutual

/-- Every well-formed filter can be written. -/
theorem writtenAs_write : ∀ f : Filter, f.WellFormed Comparison.IsWritable → f.WrittenAs f.write
  | .comparison c, ⟨_, ⟨o, ho, hfamily⟩, _⟩ =>
    .spelled c.operator o (ho ▸ Spelling.read?_text hfamily) ho
  | .connector symbol, ⟨k, hk⟩ => ⟨symbol, k, rfl, hk ▸ Connector.read?_text k, hk⟩
  | .group children, h => allWrittenAs_writeAll children h.2

theorem allWrittenAs_writeAll : ∀ fs : List Filter, AllWellFormed Comparison.IsWritable fs →
    AllWrittenAs fs (writeAll fs)
  | [], _ => rfl
  | f :: fs, h => ⟨f.write, writeAll fs, rfl, writtenAs_write f h.1, allWrittenAs_writeAll fs h.2⟩

end

/-! ### Reading what was written -/

@[simp] theorem lists_cons_list (ys r : List Value) : lists (.list ys :: r) = ys :: lists r := rfl

theorem operands_of_allWrittenAs {fs : List Filter} {xs : List Value} (h : AllWrittenAs fs xs) :
    operands xs = lists xs := by
  cases fs with
  | nil => rw [show xs = [] from h]; rfl
  | cons f fs =>
    obtain ⟨ys, r, rfl, -, hr⟩ := h
    cases fs with
    | nil => rw [show r = [] from hr]; rfl
    | cons g gs =>
      obtain ⟨zs, r', rfl, -, -⟩ := hr
      unfold operands
      split <;> simp_all

theorem ofList?_of_comparison {cfg : Config} {c : Comparison} (hc : c.IsWritable) {xs : List Value}
    (h : c.WrittenAs xs) (room : ℕ) : ofList? cfg (room + 1) xs = some (.comparison c) := by
  obtain ⟨hcolumn, -, hsuffix⟩ := hc
  have hcolumn' : c.column.isEmpty = false := by simpa using hcolumn
  obtain ⟨column, operator, value, suffix⟩ := c
  dsimp only at hsuffix hcolumn'
  subst hsuffix
  cases h with
  | spelled op o hop ho =>
    dsimp only at ho
    have hleaf : leaf? cfg [.text column, .text op, value] =
        some (.comparison ⟨column, operator, value, ""⟩) := by
      simp [leaf?, hcolumn', hop, spelled, ho]
    exact hleaf
  | equal ho hv =>
    have himplied : (impliedOperator value).text = operator := by
      cases value <;> first | exact ho.symm | exact absurd rfl hv
    have hleaf : leaf? cfg [.text column, value] =
        some (.comparison ⟨column, operator, value, ""⟩) := by
      simp [leaf?, hcolumn', himplied]
    exact hleaf
  | null ho hv =>
    dsimp only at ho hv
    have hleaf : leaf? cfg [.text column, value] =
        some (.comparison ⟨column, operator, value, ""⟩) := by
      simp [leaf?, hcolumn', hv, ho, impliedOperator, FilterOperator.text]
    exact hleaf

mutual

theorem exists_depth {P : Comparison → Prop} : ∀ f : Filter, f.WellFormed P →
    f.isConnector = false → ∃ n, n ∈ f.depths
  | .comparison _, _, _ => ⟨0, List.mem_singleton_self 0⟩
  | .connector _, _, h => by cases h
  | .group children, ⟨halternates, hall⟩, _ => by
    obtain ⟨n, hn⟩ := exists_depthsOf children hall halternates
    exact ⟨n + 1, List.mem_map_of_mem hn⟩

theorem exists_depthsOf {P : Comparison → Prop} : ∀ fs : List Filter, AllWellFormed P fs →
    Alternates isConnector fs → ∃ n, n ∈ depthsOf fs
  | [], _, h => h.elim
  | f :: fs, hall, halternates => by
    obtain ⟨n, hn⟩ := exists_depth f hall.1 halternates.1
    exact ⟨n, List.mem_append_left _ hn⟩

end

mutual

/-- A filter is read from what it is written as, given room for the lists around each comparison. -/
theorem ofList?_of_writtenAs (cfg : Config) : ∀ (f : Filter) (room : ℕ) (xs : List Value),
    f.WellFormed Comparison.IsWritable → (∀ n ∈ f.depths, n ≤ room) → f.WrittenAs xs →
      ofList? cfg (room + 1) xs = some f
  | .comparison c, room, xs, hwf, _, hw => ofList?_of_comparison hwf hw room
  | .connector symbol, room, xs, _, _, hw => by
    obtain ⟨s, k, rfl, hs, rfl⟩ := hw
    have hleaf : leaf? cfg [.text s] = some (.connector k.text) := by simp [leaf?, hs]
    exact hleaf
  | .group children, room, xs, ⟨halternates, hall⟩, hdepths, hw => by
    have hroom : ∀ n ∈ depthsOf children, n + 1 ≤ room := fun n hn =>
      hdepths (n + 1) (List.mem_map_of_mem hn)
    obtain ⟨m, hm⟩ := exists_depthsOf children hall halternates
    -- The comparison below the group leaves room for its parts, connectors included.
    obtain ⟨room', rfl⟩ : ∃ room', room = room' + 1 :=
      ⟨room - 1, by have := hroom m hm; omega⟩
    have hchildren : (operands xs).filterMap (ofList? cfg (room' + 1)) = children := by
      rw [operands_of_allWrittenAs hw]
      exact filterMap_of_allWrittenAs cfg children room' xs hall
        (fun n hn => Nat.le_of_succ_le_succ (hroom n hn)) hw
    rw [ofList?, hchildren]
    cases children with
    | nil => exact halternates.elim
    | cons f fs =>
      show groupOf? cfg (f :: fs) = _
      rw [groupOf?, interleave_eq_self halternates]

theorem filterMap_of_allWrittenAs (cfg : Config) : ∀ (fs : List Filter) (room : ℕ)
    (xs : List Value), AllWellFormed Comparison.IsWritable fs → (∀ n ∈ depthsOf fs, n ≤ room) →
      AllWrittenAs fs xs → (lists xs).filterMap (ofList? cfg (room + 1)) = fs
  | [], _, xs, _, _, hw => by rw [show xs = [] from hw]; rfl
  | f :: fs, room, xs, hall, hdepths, hw => by
    obtain ⟨ys, r, rfl, hy, hr⟩ := hw
    have hf := ofList?_of_writtenAs cfg f room ys hall.1
      (fun n hn => hdepths n (List.mem_append_left _ hn)) hy
    have hfs := filterMap_of_allWrittenAs cfg fs room r hall.2
      (fun n hn => hdepths n (List.mem_append_right _ hn)) hr
    rw [lists_cons_list, List.filterMap_cons_some hf, hfs]

end

/-- Reading undoes writing. A well-formed filter whose comparisons have columns and operators that
are no pattern matches, under at most 32 groups each, can be written, and however it is written, it
is read back under any settings. Values may be of any kind, lists that look like filters included.
-/
theorem ofValue_of_writtenAs (cfg : Config) (f : Filter)
    (hwf : f.WellFormed Comparison.IsWritable) (hroot : f.isConnector = false)
    (hdepths : ∀ n ∈ f.depths, n ≤ 32) :
    (∃ xs, f.WrittenAs xs) ∧ ∀ xs, f.WrittenAs xs → ofValue cfg (.list xs) = f := by
  refine ⟨⟨f.write, writtenAs_write f hwf⟩, fun xs hw => ?_⟩
  have hread : ofList? cfg (maxDepth + 1) xs = some f :=
    ofList?_of_writtenAs cfg f maxDepth xs hwf hdepths hw
  rw [ofValue, hread]
  cases f with
  | connector symbol => cases hroot
  | comparison c => rfl
  | group children => rfl

def tagged : Filter := .group [
  .comparison {
    column := "tags", operator := "IN",
    value := .list [.list [.text "a", .text "=", .int 1], .list [.text "OR"]] },
  .connector "OR",
  .group [.comparison { column := "deleted", operator := "IS" }],
  .connector "AND",
  .comparison { column := "and", operator := "=", value := .list [.text "or"] }]

/-- Such a filter in spellings of all kinds. -/
theorem ofValue_of_writtenAs_tagged :
    ofValue {} (.list [
      .list [.text "tags", .text " in. ", .list [.list [.text "a", .text "=", .int 1],
        .list [.text "OR"]]],
      .list [.text "o1r"],
      .list [.list [.text "deleted", .null]],
      .list [.text " And "],
      .list [.text "and", .list [.text "or"]]]) = tagged := by
  have hwf : tagged.WellFormed Comparison.IsWritable :=
    ⟨⟨rfl, rfl, rfl, rfl, rfl, trivial⟩, ⟨by decide, ⟨.in_, rfl, by decide⟩, rfl⟩, ⟨.or, rfl⟩,
      ⟨⟨rfl, trivial⟩, ⟨by decide, ⟨.is, rfl, by decide⟩, rfl⟩, trivial⟩, ⟨.and, rfl⟩,
      ⟨by decide, ⟨.eq, rfl, by decide⟩, rfl⟩, trivial⟩
  refine (ofValue_of_writtenAs {} tagged hwf rfl (by decide)).2 _ ?_
  refine ⟨_, _, rfl, .spelled " in. " .in_ (by decide) rfl, _, _, rfl,
    ⟨"o1r", .or, rfl, by decide, rfl⟩, _, _, rfl, ⟨_, _, rfl, .null rfl rfl, rfl⟩, _, _, rfl,
    ⟨" And ", .and, rfl, by decide, rfl⟩, _, _, rfl, .equal rfl (by simp), rfl⟩

end Filter

end Paging
