import Paging.Proofs.Canonical

/-! Well-formed filters. Whatever a client sends, the filter that is read from it lets everything
through or is well-formed: at every level operands and connectors take turns, and every comparison
has a column, an operator of the library and the suffix that belongs to it. -/
namespace Paging

/-- A comparison that a client can bring about: it has a column and an operator of the library; a
pattern match has a text and declares the escape of the dialect, any other comparison declares
nothing. -/
structure Comparison.IsRead (d : Dialect) (c : Comparison) : Prop where
  column : c.column ≠ ""
  operator : ∃ o : FilterOperator, c.operator = o.text ∧
    if o.family = .pattern then (∃ s, c.value = .text s) ∧ c.suffix = d.escapeSuffix
    else c.suffix = ""

namespace Filter

mutual

/-- In every group operands and connectors take turns, with an operand at both ends, so that no
group is empty; every connector is one of the two and every comparison has the property. -/
def WellFormed (P : Comparison → Prop) : Filter → Prop
  | .comparison c => P c
  | .connector symbol => ∃ k : Connector, symbol = k.text
  | .group children => Alternates isConnector children ∧ AllWellFormed P children

def AllWellFormed (P : Comparison → Prop) : List Filter → Prop
  | [] => True
  | f :: fs => f.WellFormed P ∧ AllWellFormed P fs

end

mutual

/-- Under how many groups each comparison stands, from left to right. -/
def depths : Filter → List ℕ
  | .comparison _ => [0]
  | .connector _ => []
  | .group children => (depthsOf children).map (· + 1)

def depthsOf : List Filter → List ℕ
  | [] => []
  | f :: fs => f.depths ++ depthsOf fs

end

variable {P : Comparison → Prop}

theorem allWellFormed_iff {fs : List Filter} : AllWellFormed P fs ↔ ∀ f ∈ fs, f.WellFormed P := by
  induction fs with
  | nil => simp [AllWellFormed]
  | cons f fs ih => simp [AllWellFormed, ih]

theorem mem_depthsOf {n : ℕ} {fs : List Filter} : n ∈ depthsOf fs ↔ ∃ f ∈ fs, n ∈ f.depths := by
  induction fs with
  | nil => simp [depthsOf]
  | cons f fs ih => simp [depthsOf, ih]

/-! ### What is read -/

end Filter

theorem FilterOperator.text_of_ofText? {s : Text} {o : FilterOperator}
    (h : FilterOperator.ofText? s = some o) : o.text = s := by
  simpa using List.find?_some h

theorem mem_of_lookup {α : Type} {table : List (Text × α)} {s : Text} {a : α}
    (h : table.lookup s = some a) : (s, a) ∈ table := by
  obtain ⟨before, behind, htable, -⟩ := List.lookup_eq_some_iff.mp h
  exact htable ▸ List.mem_append_right before List.mem_cons_self

namespace Spelling

theorem family_of_ofText? {s : Text} {p : Spelling} (h : ofText? s = some p) :
    match p with
    | .comparison o => o.family ≠ .pattern
    | .pattern _ a => a.operator.family = .pattern := by
  unfold ofText? at h
  split at h
  · rename_i o ho
    have hcodes : ∀ c ∈ codes, c.2.family ≠ .pattern := by decide
    cases h
    exact hcodes _ (mem_of_lookup ho)
  rename_i hcodes
  split at h
  · rename_i a ha
    have htable : ∀ w ∈ LikeAlias.table, w.2.operator.family = .pattern := by decide
    cases h
    exact htable _ (mem_of_lookup ha)
  · rename_i hword
    obtain ⟨o, ho, rfl⟩ := Option.map_eq_some_iff.mp h
    -- An operator of that family is itself one of the words.
    have hwords : ∀ o : FilterOperator, o.family = .pattern → LikeAlias.ofText? o.text ≠ none := by
      intro o
      cases o <;> decide
    rw [← FilterOperator.text_of_ofText? ho] at hword
    exact fun hfamily => hwords o hfamily hword

end Spelling

namespace Filter

variable {cfg : Config}

theorem isRead_spelled {column op : Text} {s : Spelling} (v : Value) (hcolumn : column ≠ "")
    (h : Spelling.read? op = some s) : (spelled cfg column s v).IsRead cfg.sqlDialect := by
  have hfamily := Spelling.family_of_ofText? h
  cases s with
  | comparison o =>
    refine ⟨hcolumn, o, rfl, ?_⟩
    rw [if_neg hfamily]
    rfl
  | pattern word a =>
    refine ⟨hcolumn, a.operator, rfl, ?_⟩
    rw [if_pos hfamily]
    exact ⟨⟨_, rfl⟩, rfl⟩

theorem isRead_implied {column : Text} (v : Value) (hcolumn : column ≠ "") (d : Dialect) :
    ({ column := column, operator := (impliedOperator v).text, value := v } : Comparison).IsRead
      d := by
  refine ⟨hcolumn, impliedOperator v, rfl, ?_⟩
  have hfamily : (impliedOperator v).family ≠ .pattern := by
    cases v <;> simp [impliedOperator, FilterOperator.family]
  rw [if_neg hfamily]

theorem wellFormed_of_leaf? {xs : List Value} {f : Filter} (h : leaf? cfg xs = some f) :
    f.WellFormed (Comparison.IsRead cfg.sqlDialect) ∧ ∀ n ∈ f.depths, n = 0 := by
  unfold leaf? at h
  split at h
  · obtain ⟨k, -, rfl⟩ := Option.map_eq_some_iff.mp h
    exact ⟨⟨k, rfl⟩, fun n hn => by cases hn⟩
  · split at h
    · cases h
    · rename_i hcolumn
      cases h
      exact ⟨isRead_implied _ (by simpa using hcolumn) _, fun n hn => List.mem_singleton.mp hn⟩
  · split at h
    · cases h
    · rename_i hcolumn
      obtain ⟨s, hs, rfl⟩ := Option.map_eq_some_iff.mp h
      exact ⟨isRead_spelled _ (by simpa using hcolumn) hs, fun n hn => List.mem_singleton.mp hn⟩
  · cases h

/-- A group of well-formed filters is well-formed, and in it every comparison stands one group
deeper. -/
theorem wellFormed_of_groupOf? {P : Comparison → Prop} {children : List Filter} {f : Filter}
    {room : ℕ} (hchildren : ∀ g ∈ children, g.WellFormed P ∧ ∀ n ∈ g.depths, n < room)
    (h : groupOf? cfg children = some f) :
    f.WellFormed P ∧ ∀ n ∈ f.depths, n < room + 1 := by
  have hgroup := eq_group_of_groupOf? h
  have hne : interleave isConnector (.connector cfg.operator.text) children ≠ [] := by
    intro hnil
    rw [groupOf?, hnil] at h
    cases h
  have hmem {g : Filter} (hg : g ∈ interleave isConnector (.connector cfg.operator.text) children) :
      g.WellFormed P ∧ ∀ n ∈ g.depths, n < room := by
    rcases mem_interleave hg with hg | rfl
    · exact hchildren g hg
    · exact ⟨⟨cfg.operator, rfl⟩, fun n hn => by cases hn⟩
  subst hgroup
  refine ⟨⟨alternates_interleave rfl hne, allWellFormed_iff.mpr fun g hg => (hmem hg).1⟩, ?_⟩
  intro n hn
  obtain ⟨m, hm, rfl⟩ := List.mem_map.mp hn
  obtain ⟨g, hg, hmg⟩ := mem_depthsOf.mp hm
  exact Nat.succ_lt_succ ((hmem hg).2 m hmg)

/-- Whatever is read from a list is well-formed, and no deeper than there is room. -/
theorem wellFormed_of_ofList? {room : ℕ} {xs : List Value} {f : Filter}
    (h : ofList? cfg room xs = some f) :
    f.WellFormed (Comparison.IsRead cfg.sqlDialect) ∧ ∀ n ∈ f.depths, n < room := by
  induction room generalizing xs f with
  | zero => cases h
  | succ room ih =>
    rw [ofList?] at h
    split at h
    · obtain ⟨hwf, hdepths⟩ := wellFormed_of_leaf? h
      exact ⟨hwf, fun n hn => hdepths n hn ▸ Nat.succ_pos room⟩
    · refine wellFormed_of_groupOf? (fun g hg => ?_) h
      obtain ⟨ys, -, hys⟩ := List.mem_filterMap.mp hg
      exact ih hys

theorem ofValue_wellFormed (cfg : Config) (v : Value) :
    ofValue cfg v = .empty ∨
      (ofValue cfg v).WellFormed (Comparison.IsRead cfg.sqlDialect) ∧
        ∀ n ∈ (ofValue cfg v).depths, n ≤ maxDepth := by
  unfold ofValue
  split
  · split
    · exact Or.inl rfl
    · rename_i f _ hf
      obtain ⟨hwf, hdepths⟩ := wellFormed_of_ofList? hf
      exact Or.inr ⟨hwf, fun n hn => Nat.lt_succ_iff.mp (hdepths n hn)⟩
    · exact Or.inl rfl
  · exact Or.inl rfl

/-- Only well-formed filters are read. Whatever a client sends, a JSON text or the decoded value,
of it comes the filter that lets everything through, or a single comparison, or a group in which at
every level operands and connectors take turns and no group is empty. No comparison stands under
more than 32 groups, and each has a column, an operator of the library and the suffix that belongs
to it. -/
theorem ofInput_wellFormed (cfg : Config) (raw : Value) :
    let f := ofInput cfg raw
    let d := cfg.sqlDialect
    f = .empty ∨ (∃ c : Comparison, f = .comparison c ∧ c.IsRead d) ∨
      ∃ children, f = .group children ∧ f.WellFormed (Comparison.IsRead d) ∧
        ∀ n ∈ f.depths, n ≤ 32 := by
  intro f d
  have hf : f = ofValue cfg (clientValue raw) := ofInput_eq cfg raw
  have hroot : f.isConnector = false := hf ▸ isConnector_ofValue cfg (clientValue raw)
  rcases ofValue_wellFormed cfg (clientValue raw) with hempty | ⟨hwf, hdepths⟩
  · exact Or.inl (hf.trans hempty)
  · rw [← hf] at hwf hdepths
    refine Or.inr ?_
    cases h : f with
    | comparison c => exact Or.inl ⟨c, rfl, by rwa [h] at hwf⟩
    | connector symbol => simp [h, isConnector] at hroot
    | group children => exact Or.inr ⟨children, rfl, h ▸ hwf, h ▸ hdepths⟩

end Filter

end Paging
