import Paging.Paginator

/-! What the entries of a cache have in common. A property of all keys and texts in the store
survives every operation, whether the connection fails or not, if what is written has it too;
and what is read has it. -/
namespace Paging.Cache

variable {P : String → Text → Prop}

def Store.All (P : String → Text → Prop) (s : Store) : Prop :=
  ∀ x ∈ s.entries, P x.1 x.2.text

namespace Store

variable {s : Store}

theorem All.of_entries_subset {s' : Store} (h : s.All P) (hs : s'.entries ⊆ s.entries) :
    s'.All P :=
  fun x hx => h x (hs hx)

theorem All.settle (h : s.All P) (key : String) : (s.settle key).All P := by
  unfold Store.settle
  split
  · split
    · exact h
    · exact h.of_entries_subset List.filter_sublist.subset
  · exact h

theorem All.clearUnder (h : s.All P) (label : String) : (s.clearUnder label).All P :=
  h.of_entries_subset List.filter_sublist.subset

theorem All.clearAll (s : Store) : s.clearAll.All P :=
  fun _ hx => by cases hx

theorem All.advance (h : s.All P) (seconds : Int) : (s.advance seconds).All P := h

theorem mem_put {key : String} {e : Entry} {es : List (String × Entry)} {x : String × Entry}
    (hx : x ∈ put key e es) : x = (key, e) ∨ x ∈ es := by
  induction es with
  | nil => exact Or.inl (List.mem_singleton.mp hx)
  | cons y es ih =>
    rw [put] at hx
    split at hx
    · rcases List.mem_cons.mp hx with hx | hx
      · exact Or.inl hx
      · exact Or.inr (List.mem_cons_of_mem y hx)
    · rcases List.mem_cons.mp hx with hx | hx
      · exact Or.inr (hx ▸ List.mem_cons_self)
      · exact (ih hx).imp_right (List.mem_cons_of_mem y)

theorem All.set (h : s.All P) {key : String} {text : Text} (hnew : P key text) (ttl : Option Int) :
    (s.set key text ttl).All P := by
  intro x hx
  rcases mem_put hx with rfl | hx
  · exact hnew
  · exact h x hx

theorem All.live? (h : s.All P) {key : String} {text : Text} (hlive : s.live? key = some text) :
    P key text := by
  obtain ⟨e, he, rfl⟩ := Option.map_eq_some_iff.mp hlive
  obtain ⟨before, behind, hes, -⟩ :=
    List.lookup_eq_some_iff.mp (Option.filter_eq_some_iff.mp he).1
  exact h (key, e) (hes ▸ List.mem_append_right before List.mem_cons_self)

end Store

def Adapter.All (P : String → Text → Prop) (a : Adapter) : Prop := a.store.All P

theorem Adapter.All.attempt {α : Type} {a : Adapter} (h : a.All P) (op : Operation)
    (about : Option String) {act : Store → α × Store} (hact : (act a.store).2.All P) :
    (a.attempt op about act).2.All P := by
  unfold Adapter.attempt
  split
  · exact h
  · exact hact

theorem Adapter.attempt_ok {α : Type} {a : Adapter} {op : Operation} {about : Option String}
    {act : Store → α × Store} {x : α} (h : (a.attempt op about act).1 = .ok x) :
    x = (act a.store).1 := by
  unfold Adapter.attempt at h
  split at h
  · cases h
  · exact (Except.ok.inj h).symm

def Gateway.All (P : String → Text → Prop) (g : Gateway) : Prop := ∀ a ∈ g.adapter, a.All P

namespace Gateway

variable {g : Gateway}

theorem All.note (h : g.All P) (ns : List Notice) : (g.note ns).All P := h

theorem All.withAdapter {a : Adapter} (ha : a.All P) : (g.withAdapter a).All P := by
  rintro _ ⟨⟩
  exact ha

theorem All.after {α : Type} {r : Except String α × Adapter} (h : r.2.All P) (what : String) :
    (g.after what r).All P := by
  obtain ⟨result, a⟩ := r
  cases result with
  | ok x => exact All.withAdapter h
  | error message => exact (All.withAdapter h).note _

theorem All.read (h : g.All P) (key : String) :
    (g.read key).2.All P ∧ ∀ text, (g.read key).1 = some text → P key text := by
  unfold Gateway.read
  split
  · exact ⟨h, fun text ht => by cases ht⟩
  rename_i a ha
  split
  · exact ⟨h, fun text ht => by cases ht⟩
  have hchecked : (a.isValid key).2.All P := (h a ha).attempt _ _ (Store.All.settle (h a ha) key)
  have hgot : ((a.isValid key).2.get key).2.All P := hchecked.attempt _ _ (hchecked.settle key)
  dsimp only
  split
  · split
    · rename_i text htext
      refine ⟨.withAdapter hgot, fun t ht => hchecked.live? ?_⟩
      have hlive : text = (a.isValid key).2.store.live? key := Adapter.attempt_ok htext
      exact hlive ▸ (Option.filter_eq_some_iff.mp ht).1
    · exact ⟨.after hgot _, fun text ht => by cases ht⟩
  · exact ⟨.after hchecked _, fun text ht => by cases ht⟩

theorem All.write (h : g.All P) {key : String} {text : Text} (hnew : key ≠ "" → P key text) :
    (g.write key text).All P := by
  unfold Gateway.write
  split
  · exact h
  rename_i a ha
  split
  · exact h
  · rename_i hkey
    have hne : key ≠ "" := by simpa using hkey
    exact .after ((h a ha).attempt _ _ (Store.All.set (h a ha) (hnew hne) g.ttl)) _

theorem All.getPage (h : g.All P) (key : String) :
    (g.getPage key).2.All P ∧
      ∀ page, (g.getPage key).1 = some page → ∃ text, P key text ∧ Page.ofJson text = .ok page := by
  obtain ⟨hread, htext⟩ := h.read key
  unfold Gateway.getPage
  split
  · rename_i g' hg
    rw [hg] at hread
    exact ⟨hread.note _, fun page hp => by cases hp⟩
  · rename_i text g' hg
    rw [hg] at hread
    split
    · rename_i page hpage
      refine ⟨hread.note _, fun p hp => ?_⟩
      obtain rfl := Option.some.inj hp
      exact ⟨text, htext text (by rw [hg]), hpage⟩
    · exact ⟨hread.note _, fun page hp => by cases hp⟩

theorem All.getCount (h : g.All P) (key : String) :
    (g.getCount key).2.All P ∧
      ∀ n, (g.getCount key).1 = some n → ∃ text, P key text ∧ Decimal.readInt? text = some n := by
  obtain ⟨hread, htext⟩ := h.read key
  unfold Gateway.getCount
  split
  · rename_i g' hg
    rw [hg] at hread
    exact ⟨hread, fun n hn => by cases hn⟩
  · rename_i text g' hg
    rw [hg] at hread
    split
    · rename_i n hn
      refine ⟨hread, fun m hm => ?_⟩
      obtain rfl := Option.some.inj hm
      exact ⟨text, htext text (by rw [hg]), hn⟩
    · exact ⟨hread.note _, fun n hn => by cases hn⟩

theorem All.clearUnder (h : g.All P) (label : String) : (g.clearUnder label).All P := by
  unfold Gateway.clearUnder
  split
  · exact h
  rename_i a ha
  split
  · exact h
  · exact .after ((h a ha).attempt _ _ (Store.All.clearUnder (h a ha) label)) _

theorem All.clearAll (h : g.All P) : g.clearAll.All P := by
  unfold Gateway.clearAll
  split
  · exact h
  · rename_i a ha
    exact .after ((h a ha).attempt _ _ (Store.All.clearAll a.store)) _

theorem All.perform (h : g.All P) (c : Clear) : (c.perform g).All P := by
  cases c with
  | under label => exact h.clearUnder label
  | all => exact h.clearAll

end Gateway

end Paging.Cache

namespace Paging

variable {P : String → Text → Prop} {cfg : Config} {ex : Executor} {q : Query}
  {fields : List Text} {g : Cache.Gateway}

theorem Outcome.all_rows (h : (total cfg ex q g).cache.All P) :
    (rows cfg ex q fields g).cache.All P := by
  unfold rows
  dsimp only
  split
  · exact h
  · exact h.note _

theorem Answer.all_ofQuery {d : Descriptor} {key : String}
    (h : (Outcome.rows cfg ex q fields g).cache.All P)
    (hnew : key ≠ "" → ∀ page, (ofQuery cfg ex d q fields key g).page = .ok page →
      P key page.toJson) :
    (ofQuery cfg ex d q fields key g).cache.All P := by
  unfold ofQuery at hnew ⊢
  dsimp only at hnew ⊢
  split at hnew
  · exact h.write fun hkey => hnew hkey _ rfl
  · exact h.note _
  · exact h

end Paging
