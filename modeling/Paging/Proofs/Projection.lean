import Paging.Paginator
import Paging.Sql.Executor

/-! What a request makes the database project. A server's list of fields bounds the fetched columns
only if one of its fields stays in force and names a column, for an empty selection selects every
column. -/
namespace Paging

namespace FieldList

theorem mem_foldl_distinct (name : Text) (names seen : List Text) :
    name ∈ names.foldl (fun seen name => if seen.contains name then seen else seen ++ [name]) seen ↔
      name ∈ seen ∨ name ∈ names := by
  induction names generalizing seen with
  | nil => simp
  | cons n names ih =>
    rw [List.foldl_cons, ih, List.mem_cons]
    by_cases h : seen.contains n
    · have hn : n ∈ seen := by simpa using h
      rw [if_pos h]
      constructor
      · rintro (hs | hs)
        · exact Or.inl hs
        · exact Or.inr (Or.inr hs)
      · rintro (hs | rfl | hs)
        · exact Or.inl hs
        · exact Or.inl hn
        · exact Or.inr hs
    · rw [if_neg h, List.mem_append, List.mem_singleton, or_assoc]

@[simp] theorem mem_distinct (name : Text) (names : List Text) :
    name ∈ distinct names ↔ name ∈ names := by
  rw [distinct, mem_foldl_distinct]
  simp

/-- A field of the server's list stays in force unless the client may choose, chooses, and leaves it
out. -/
def InForce (requested : List Text) (enabled : Bool) (f : Text) : Prop :=
  enabled = true → requested ≠ [] → f ∈ requested

variable {requested allowed : List Text} {enabled : Bool}

instance (f : Text) : Decidable (InForce requested enabled f) :=
  inferInstanceAs (Decidable (enabled = true → requested ≠ [] → f ∈ requested))

theorem mem_choose (hallowed : allowed ≠ []) (f : Text) :
    f ∈ choose requested allowed enabled ↔ f ∈ allowed ∧ InForce requested enabled f := by
  have hempty : allowed.isEmpty = false := by simpa using hallowed
  by_cases h : !requested.isEmpty && enabled
  · obtain ⟨hr, he⟩ : requested ≠ [] ∧ enabled = true := by simpa using h
    simp [choose, hempty, hr, he, InForce, and_comm]
  · have hforce : InForce requested enabled f := by
      intro he hr
      exact absurd (by simp [he, hr]) h
    simp only [choose, hempty, if_neg h]
    simp [hforce]

theorem mem_select (hallowed : allowed ≠ []) (c : Text) :
    c ∈ select requested allowed enabled ↔
      ∃ f ∈ allowed, InForce requested enabled f ∧ Column.resolve f = c := by
  rw [select, mem_distinct, List.mem_map]
  constructor
  · rintro ⟨f, hf, hc⟩
    obtain ⟨ha, hforce⟩ := (mem_choose hallowed f).mp hf
    exact ⟨f, ha, hforce, hc⟩
  · rintro ⟨f, ha, hforce, hc⟩
    exact ⟨f, (mem_choose hallowed f).mpr ⟨ha, hforce⟩, hc⟩

end FieldList

namespace Sql

/-- The columns in the list of a projection. -/
def Projection.names : Projection → List Text
  | .count => []
  | .columns names => names

namespace Statement

variable {b : Base} {fields : List Text}

theorem mem_known (c : Text) : c ∈ known b fields ↔ c ∈ fields ∧ c ∈ b.columns := by
  simp [known]

theorem selected_of_known (h : ∃ c ∈ fields, c ∈ b.columns) :
    selected b fields = known b fields := by
  obtain ⟨c, hc⟩ := h
  have hmem : c ∈ known b fields := (mem_known c).mpr hc
  rw [selected]
  split
  · next hnil => rw [hnil] at hmem; cases hmem
  · rfl

theorem selected_of_unknown (h : ∀ c ∈ fields, c ∉ b.columns) : selected b fields = b.columns := by
  have hnil : known b fields = [] := by
    rw [List.eq_nil_iff_forall_not_mem]
    intro c hc
    obtain ⟨hf, hb⟩ := (mem_known c).mp hc
    exact h c hf hb
  simp [selected, hnil]

theorem forall_selected_iff {P : Text → Prop} (hP : ∀ c ∈ fields, P c) :
    (∀ c ∈ selected b fields, P c) ↔ (∃ c ∈ fields, c ∈ b.columns) ∨ ∀ c ∈ b.columns, P c := by
  by_cases h : ∃ c ∈ fields, c ∈ b.columns
  · have hsome : ∀ c ∈ selected b fields, P c := by
      rw [selected_of_known h]
      intro c hc
      exact hP c ((mem_known c).mp hc).1
    exact iff_of_true hsome (Or.inl h)
  · rw [selected_of_unknown (fun c hf hb => h ⟨c, hf, hb⟩)]
    exact (or_iff_right h).symm

theorem names_of_fetch {q : Query} {st : Statement} (h : fetch b q fields = .ok st) :
    st.projection.names = selected b fields := by
  simp only [fetch, bind, Except.bind, pure, Except.pure] at h
  split at h
  · cases h
  · cases h
    rfl

end Statement

end Sql

section Calls

variable {cfg : Config} {ex : Executor} {g : Cache.Gateway} {q : Query} {fields : List Text}
  {c : Call}

theorem Outcome.mem_calls_total (h : c ∈ (total cfg ex q g).calls) : c = .count q := by
  rw [total] at h
  split at h
  · dsimp only at h
    split at h
    · cases h
    · split at h
      · exact List.mem_singleton.mp h
      · exact List.mem_singleton.mp h
  · exact List.mem_singleton.mp h

theorem Outcome.mem_calls_rows (h : c ∈ (rows cfg ex q fields g).calls) :
    c = .count q ∨ c = .fetch q fields := by
  unfold rows at h
  dsimp only at h
  split at h
  · exact Or.inl (mem_calls_total h)
  · rcases List.mem_append.mp h with hc | hc
    · exact Or.inl (mem_calls_total hc)
    · exact Or.inr (List.mem_singleton.mp hc)

variable {d : Descriptor} {key label : String} {allowed : List Text} {r : Request}

theorem Answer.calls_ofQuery :
    (ofQuery cfg ex d q fields key g).calls = (Outcome.rows cfg ex q fields g).calls := by
  rw [ofQuery]
  dsimp only
  split <;> rfl

theorem Answer.mem_calls_ofKey (h : c ∈ (ofKey cfg ex d q fields key g).calls) :
    c = .count q ∨ c = .fetch q fields := by
  rw [ofKey] at h
  split at h
  · split at h
    · cases h
    · rw [calls_ofQuery] at h
      exact Outcome.mem_calls_rows h
  · rw [calls_ofQuery] at h
    exact Outcome.mem_calls_rows h

theorem Answer.mem_calls_ofRequest (h : c ∈ (ofRequest cfg ex r label allowed g).calls) :
    ∃ q, Query.ofDescriptor cfg (Descriptor.ofRequest cfg r) = .ok q ∧
      (c = .count q ∨ c = .fetch q (FieldList.select (Descriptor.ofRequest cfg r).fields allowed
        cfg.fieldSelector)) := by
  rw [ofRequest] at h
  dsimp only at h
  split at h
  · cases h
  · next q hq => exact ⟨q, hq, mem_calls_ofKey h⟩

end Calls

/-- Do columns come from some fields only? -/
def WithinFields (allowed columns : List Text) : Prop :=
  ∀ c ∈ columns, ∃ f ∈ allowed, Column.resolve f = c

instance (allowed columns : List Text) : Decidable (WithinFields allowed columns) :=
  inferInstanceAs (Decidable (∀ c ∈ columns, ∃ f ∈ allowed, Column.resolve f = c))

/-- A fetch runs a statement whose columns stay within the server's fields if, and only if, one of
these is in force and names a column, or no column lies outside. -/
theorem fetch_within_allowed_iff (p : Paginator) (b : Sql.Base) (name : String)
    (dialect : Option String) (db : Sql.Database) (item : Row → Row) (r : Request)
    (label : String) (allowed : List Text) (hallowed : allowed ≠ []) (q : Query)
    (fields : List Text) (st : Sql.Statement)
    (hcall : Call.fetch q fields ∈
      (p.paginate (Sql.executor b name dialect db item) r label allowed).1.calls)
    (hst : Sql.Statement.fetch b q fields = .ok st) :
    (Sql.executor b name dialect db item).fetch q fields =
        (Sql.run (.ok st) db.rows).map (fun rows => rows.map item) ∧
      (WithinFields allowed st.projection.names ↔
        (∃ f ∈ allowed, FieldList.InForce (Descriptor.ofRequest (p.config.resolve dialect) r).fields
          (p.config.resolve dialect).fieldSelector f ∧ Column.resolve f ∈ b.columns) ∨
        WithinFields allowed b.columns) := by
  refine ⟨by rw [← hst]; rfl, ?_⟩
  obtain ⟨q', -, hcount | hfetch⟩ := Answer.mem_calls_ofRequest hcall
  · cases hcount
  obtain ⟨rfl, rfl⟩ := Call.fetch.inj hfetch
  have hselected : ∀ c ∈ FieldList.select
      (Descriptor.ofRequest (p.config.resolve dialect) r).fields allowed
      (p.config.resolve dialect).fieldSelector, ∃ f ∈ allowed, Column.resolve f = c := by
    intro c hc
    obtain ⟨f, hf, -, hfc⟩ := (FieldList.mem_select hallowed c).mp hc
    exact ⟨f, hf, hfc⟩
  rw [Sql.Statement.names_of_fetch hst, WithinFields]
  refine (Sql.Statement.forall_selected_iff hselected).trans (or_congr_left ?_)
  constructor
  · rintro ⟨c, hc, hb⟩
    obtain ⟨f, hf, hforce, rfl⟩ := (FieldList.mem_select hallowed c).mp hc
    exact ⟨f, hf, hforce, hb⟩
  · rintro ⟨f, hf, hforce, hb⟩
    exact ⟨_, (FieldList.mem_select hallowed _).mpr ⟨f, hf, hforce, rfl⟩, hb⟩

/-- A client that asks for nothing of the server's list gets every column. -/
theorem fetch_within_allowed_iff_disjoint :
    (["id"] : List Text) ≠ [] ∧ ∃ q fields st,
      Call.fetch q fields ∈ (Paginator.paginate { config := { fieldSelector := true } }
        (Sql.executor ⟨"users", ["id", "name"], []⟩ "users" none ⟨fun _ => .ok 0, fun _ => .ok []⟩
          id) (.mapping [("fields", .text "name")]) "" ["id"]).1.calls ∧
      Sql.Statement.fetch ⟨"users", ["id", "name"], []⟩ q fields = .ok st ∧
      st.projection = .columns ["id", "name"] ∧ ¬ WithinFields ["id"] st.projection.names := by
  have hallowed : (["id"] : List Text) ≠ [] := by decide
  have hcall : Call.fetch { wheres := [], params := [], limit := 10, offset := 0, sorts := [] } [] ∈
      (Paginator.paginate { config := { fieldSelector := true } }
        (Sql.executor ⟨"users", ["id", "name"], []⟩ "users" none ⟨fun _ => .ok 0, fun _ => .ok []⟩
          id) (.mapping [("fields", .text "name")]) "" ["id"]).1.calls :=
    List.mem_cons_of_mem _ List.mem_cons_self
  refine ⟨hallowed, _, _, _, hcall, rfl, rfl, ?_⟩
  rw [(fetch_within_allowed_iff _ _ _ _ _ _ _ _ _ hallowed _ _ _ hcall rfl).2]
  decide +kernel

end Paging
