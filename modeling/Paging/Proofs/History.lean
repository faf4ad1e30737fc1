import Mathlib.Data.List.Induction
import Paging.Proofs.Direct
import Paging.Proofs.Lifetime

/-! What the history of a run says about the cache. A page can still be served if some inquiry
fetched it, and since then no inquiry of its kind fetched another, no clear took it away and its
time is not up. With a connection that works, and where no row counts are kept, the live entries
after a run are just the pages that can be served. -/
namespace Paging

/-- Does a clear take away what is kept under a key? That of the empty label takes nothing. -/
def Clear.Covers (key : String) : Clear → Prop
  | .under label => label ≠ "" ∧ Cache.Store.isUnder label key = true
  | .all => True

/-! ### Running a query -/

namespace Answer

variable {cfg : Config} {ex : Executor} {q : Query} {fields : List Text} {g : Cache.Gateway}
  {ttl : Option Int} {store : Cache.Store}

theorem holds_ofQuery_of_ok (hcount : cfg.CountsAnew g) (hg : g.Holds ttl store)
    {r : List Row × Int} (hrun : ex.run q fields = .ok r) (d : Descriptor) {key : String}
    (hkey : key ≠ "") : (ofQuery cfg ex d q fields key g).cache.Holds ttl
      (store.set key (Page.build r.1 r.2 q d).toJson ttl) := by
  obtain ⟨ns, hcache⟩ := ofQuery_cache_of_ok hcount hrun d key
  rw [hcache]
  exact (hg.note ns).write hkey _

theorem holds_ofQuery_of_error (hcount : cfg.CountsAnew g) (hg : g.Holds ttl store)
    {e : ExecutionError} (hrun : ex.run q fields = .error e) (d : Descriptor) (key : String) :
    (ofQuery cfg ex d q fields key g).cache.Holds ttl store := by
  obtain ⟨ns, hcache⟩ := ofQuery_cache_of_error hcount hrun d key
  rw [hcache]
  exact hg.note ns

theorem holds_ofQuery_empty (hcount : cfg.CountsAnew g) (hg : g.Holds ttl store)
    (d : Descriptor) : (ofQuery cfg ex d q fields "" g).cache.Holds ttl store := by
  cases hrun : ex.run q fields with
  | error e => exact holds_ofQuery_of_error hcount hg hrun d ""
  | ok r =>
    obtain ⟨ns, hcache⟩ := ofQuery_cache_of_ok hcount hrun d ""
    rw [hcache]
    exact (hg.note ns).write_empty _

end Answer

/-! ### Histories -/

namespace Paginator

namespace Step

def under (labels : List String) : List Clear := (labels.filter fun l => !l.isEmpty).map .under

/-- The clears that take effect in a step, if those of `waiting` wait for a drain. -/
def takes (waiting : List Clear) : Step → List Clear
  | .clear labels true => under labels
  | .clearAll true => [.all]
  | .drain => waiting
  | _ => []

def leaves (waiting : List Clear) : Step → List Clear
  | .clear labels false => waiting ++ under labels
  | .clearAll false => waiting ++ [.all]
  | .drain => []
  | _ => waiting

def seconds : Step → Int
  | .advance seconds => seconds
  | _ => 0

end Step

def pending (steps : List Step) : List Clear := steps.foldl Step.leaves []

def run (p : Paginator) (steps : List Step) : Paginator := steps.foldl step p

/-- An inquiry is answered by running its query, with success. -/
structure Fetches (p : Paginator) (i : Inquiry) (page : Page) : Prop where
  calls : (p.respond i).1.calls ≠ []
  page : (p.respond i).1.page = .ok page
  run : ∃ q r, i.query p.config = .ok q ∧ i.executor.run q (i.fields p.config) = .ok r

section

variable {p : Paginator} {same : Inquiry → Prop} {past since steps : List Step}
  {s : Step} {j : Inquiry} {page : Page}

theorem run_concat (p : Paginator) (steps : List Step) (s : Step) :
    p.run (steps ++ [s]) = (p.run steps).step s := by
  simp [run]

@[simp] theorem step_config (p : Paginator) (s : Step) : (p.step s).config = p.config := by
  cases s with
  | clear labels now => cases now <;> rfl
  | clearAll now => cases now <;> rfl
  | _ => rfl

@[simp] theorem run_config (p : Paginator) (steps : List Step) :
    (p.run steps).config = p.config := by
  induction steps generalizing p with
  | nil => rfl
  | cons s steps ih => exact (ih (p.step s)).trans (p.step_config s)

end

/-! ### One inquiry -/

section

variable {p : Paginator} {i : Inquiry} {q : Query} {ttl : Option Int} {store : Cache.Store}

theorem respond_of_found (hp : p.cache.enabled = true) (hkey : i.pageKey p.config ≠ "")
    (hq : i.query p.config = .ok q) {page : Page}
    (hfound : ((p.noted i).getPage (i.pageKey p.config)).1 = some page) :
    (p.respond i).1 = ⟨.ok page, [], ((p.noted i).getPage (i.pageKey p.config)).2⟩ := by
  have hon : (p.noted i).enabled = true := hp
  rw [respond_of_ok hq, Answer.ofKey, if_pos (by simp [hon, hkey])]
  split
  · rename_i hget
    rw [hget] at hfound ⊢
    rw [Option.some.inj hfound]
  · rename_i hget
    rw [hget] at hfound
    cases hfound

theorem respond_of_missing (hp : p.cache.enabled = true) (hkey : i.pageKey p.config ≠ "")
    (hq : i.query p.config = .ok q)
    (hmissing : ((p.noted i).getPage (i.pageKey p.config)).1 = none) :
    (p.respond i).1 = Answer.ofQuery (i.config p.config) i.executor (i.descriptor p.config) q
      (i.fields p.config) (i.pageKey p.config) ((p.noted i).getPage (i.pageKey p.config)).2 := by
  have hon : (p.noted i).enabled = true := hp
  rw [respond_of_ok hq, Answer.ofKey, if_pos (by simp [hon, hkey])]
  split
  · rename_i hget
    rw [hget] at hmissing
    cases hmissing
  · rename_i hget
    rw [hget]

theorem not_fetches_of_calls (h : (p.respond i).1.calls = []) (page : Page) :
    ¬ p.Fetches i page :=
  fun hfetched => hfetched.calls h

theorem not_fetches_of_run (hq : i.query p.config = .ok q) {e : ExecutionError}
    (h : i.executor.run q (i.fields p.config) = .error e) (page : Page) : ¬ p.Fetches i page := by
  rintro ⟨-, -, q', r, hq', hrun⟩
  obtain rfl := Except.ok.inj (hq.symm.trans hq')
  rw [h] at hrun
  cases hrun

/-- What an inquiry leaves in the store: the page that it fetched, or nothing new. -/
theorem respond_store (hcount : p.config.countCache = false) (hp : p.cache.Holds ttl store)
    (i : Inquiry) :
    (∃ page, p.Fetches i page ∧ i.pageKey p.config ≠ "" ∧
      (p.respond i).1.cache.Holds ttl
        ((store.settle (i.pageKey p.config)).set (i.pageKey p.config) page.toJson ttl)) ∨
    ((i.pageKey p.config ≠ "" → ∀ page, ¬ p.Fetches i page) ∧
      ∃ store', (p.respond i).1.cache.Holds ttl store' ∧
        (store' = store ∨ store' = store.settle (i.pageKey p.config))) := by
  have hnoted : (p.noted i).Holds ttl store := hp.note _
  have hresolved := Inquiry.countsAnew hcount i
  cases hq : i.query p.config with
  | error e =>
    have hanswer := respond_of_error hq
    refine .inr ⟨fun _ => not_fetches_of_calls (by rw [hanswer]), store, ?_, .inl rfl⟩
    rw [hanswer]
    exact hnoted
  | ok q =>
    by_cases hkey : i.pageKey p.config = ""
    · refine .inr ⟨fun h => absurd hkey h, store, ?_, .inl rfl⟩
      rw [respond_of_ok hq, hkey, Answer.ofKey, if_neg (by simp)]
      exact Answer.holds_ofQuery_empty (hresolved _) hnoted _
    obtain ⟨-, hget⟩ := hnoted.getPage hkey
    cases hfound : ((p.noted i).getPage (i.pageKey p.config)).1 with
    | some page =>
      have hanswer := respond_of_found hp.enabled hkey hq hfound
      refine .inr ⟨fun _ => not_fetches_of_calls (by rw [hanswer]), _, ?_, .inr rfl⟩
      rw [hanswer]
      exact hget
    | none =>
      have hanswer := respond_of_missing hp.enabled hkey hq hfound
      cases hrun : i.executor.run q (i.fields p.config) with
      | ok r =>
        refine .inl ⟨Page.build r.1 r.2 q (i.descriptor p.config), ⟨?_, ?_, q, r, hq, hrun⟩,
          hkey, ?_⟩
        · rw [hanswer, Answer.ofQuery_calls (hresolved _)]
          exact List.cons_ne_nil _ _
        · rw [hanswer, Answer.ofQuery_page_eq_run (hresolved _), hrun]
          rfl
        · rw [hanswer]
          exact Answer.holds_ofQuery_of_ok (hresolved _) hget hrun _ hkey
      | error e =>
        refine .inr ⟨fun _ => not_fetches_of_run hq hrun, _, ?_, .inr rfl⟩
        rw [hanswer]
        exact Answer.holds_ofQuery_of_error (hresolved _) hget hrun _ _

end

/-! ### One step -/

section

variable {ttl : Option Int} {store : Cache.Store}

theorem advance_holds {p : Paginator} (hp : p.cache.Holds ttl store) (seconds : Int) :
    (p.advance seconds).cache.Holds ttl (store.advance seconds) := by
  obtain ⟨httl, a, ha, rfl, hworks⟩ := hp
  refine ⟨httl, { a with store := a.store.advance seconds }, ?_, rfl, hworks⟩
  show p.cache.adapter.map _ = _
  rw [ha]
  rfl

theorem perform_store {g : Cache.Gateway} (hg : g.Holds ttl store) (c : Clear) :
    ∃ store', (c.perform g).Holds ttl store' ∧ store'.now = store.now ∧
      ∀ key e, store'.kept? key = some e ↔ store.kept? key = some e ∧ ¬ c.Covers key := by
  cases c with
  | all => exact ⟨_, hg.clearAll, rfl, by simp [Clear.Covers]⟩
  | under label =>
    by_cases hlabel : label = ""
    · refine ⟨store, ?_, rfl, by simp [Clear.Covers, hlabel]⟩
      rw [hlabel]
      exact hg.clearUnder_empty
    · refine ⟨_, hg.clearUnder hlabel, rfl, fun key e => ?_⟩
      rw [Cache.Store.kept?_clearUnder]
      by_cases hunder : Cache.Store.isUnder label key = true
      · simp [Clear.Covers, hlabel, hunder]
      · simp [Clear.Covers, hunder]

theorem performAll_store (cs : List Clear) {g : Cache.Gateway} (hg : g.Holds ttl store) :
    ∃ store', (cs.foldl Clear.perform g).Holds ttl store' ∧ store'.now = store.now ∧
      ∀ key e, store'.kept? key = some e ↔
        store.kept? key = some e ∧ ∀ c ∈ cs, ¬ c.Covers key := by
  induction cs generalizing g store with
  | nil => exact ⟨store, hg, rfl, by simp⟩
  | cons c cs ih =>
    obtain ⟨store₁, hg₁, hnow₁, hlive₁⟩ := perform_store hg c
    obtain ⟨store₂, hg₂, hnow₂, hlive₂⟩ := ih hg₁
    refine ⟨store₂, hg₂, hnow₂.trans hnow₁, fun key e => ?_⟩
    rw [hlive₂, hlive₁, List.forall_mem_cons, and_assoc]

end

/-- The paginator has these settings, these clears wait for a drain, and the cache works on this
store. -/
structure Stands (cfg : Config) (waiting : List Clear) (store : Cache.Store) (p : Paginator) :
    Prop where
  config : p.config = cfg
  scheduled : p.scheduled = waiting
  cache : p.cache.Holds cfg.cacheTtl store

/-- A step turns one store into the other: what is live under a key afterwards is the page that the
step fetched, or what was live before unless the step has ended it. -/
structure Turns (p : Paginator) (waiting : List Clear) (s : Step) (store store' : Cache.Store) :
    Prop where
  now : store'.now = store.now + s.seconds
  live : ∀ key, key ≠ "" → ∀ e, store'.kept? key = some e ↔
    (∃ i page, s = .respond i ∧ i.pageKey p.config = key ∧ p.Fetches i page ∧
      e = .lasting store.now page.toJson p.config.cacheTtl ∧ e.isLive store'.now = true) ∨
    (store.kept? key = some e ∧
      (∀ i, s = .respond i → i.pageKey p.config = key → ∀ page, ¬ p.Fetches i page) ∧
      (∀ c ∈ s.takes waiting, ¬ c.Covers key) ∧ e.isLive store'.now = true)

section

variable {cfg : Config} {p : Paginator} {waiting : List Clear} {store store' : Cache.Store}
  {s : Step}

theorem Turns.of_quiet (hs : ∀ i, s ≠ .respond i) (hnow : store'.now = store.now + s.seconds)
    (hlive : ∀ key e, store'.kept? key = some e ↔ store.kept? key = some e ∧
      (∀ c ∈ s.takes waiting, ¬ c.Covers key) ∧ e.isLive store'.now = true) :
    Turns p waiting s store store' := by
  refine ⟨hnow, fun key hkey e => ?_⟩
  rw [hlive]
  constructor
  · rintro ⟨he, htakes, hlater⟩
    exact .inr ⟨he, fun i hi => absurd hi (hs i), htakes, hlater⟩
  · rintro (⟨i, page, hi, -⟩ | ⟨he, -, htakes, hlater⟩)
    · exact absurd hi (hs i)
    · exact ⟨he, htakes, hlater⟩

theorem Turns.of_clears (hs : ∀ i, s ≠ .respond i) (hseconds : s.seconds = 0)
    (hnow : store'.now = store.now)
    (hlive : ∀ key e, store'.kept? key = some e ↔
      store.kept? key = some e ∧ ∀ c ∈ s.takes waiting, ¬ c.Covers key) :
    Turns p waiting s store store' := by
  refine .of_quiet hs (by rw [hseconds, hnow, Int.add_zero]) fun key e => ?_
  rw [hlive, hnow]
  constructor
  · rintro ⟨he, htakes⟩
    exact ⟨he, htakes, (Cache.Store.kept?_eq_some.mp he).2⟩
  · rintro ⟨he, htakes, -⟩
    exact ⟨he, htakes⟩

theorem Turns.of_respond (hcount : p.config.countCache = false)
    (hp : p.cache.Holds p.config.cacheTtl store) (i : Inquiry) :
    ∃ store', (p.respond i).1.cache.Holds p.config.cacheTtl store' ∧
      Turns p waiting (.respond i) store store' := by
  rcases respond_store hcount hp i with
    ⟨page, hfetched, hkey, hcache⟩ | ⟨hnone, store', hcache, hstore⟩
  · refine ⟨_, hcache, by simp [Step.seconds], fun key _ e => ?_⟩
    by_cases hsame : i.pageKey p.config = key
    · rw [← hsame, Cache.Store.kept?_set_self, Cache.Store.settle_now, Cache.Store.set_now,
        Cache.Store.settle_now]
      constructor
      · rintro ⟨he, hlive⟩
        exact .inl ⟨i, page, rfl, rfl, hfetched, he, hlive⟩
      · rintro (⟨j, page', hj, -, hfetched', he, hlive⟩ | ⟨-, hnot, -⟩)
        · obtain rfl := Step.respond.inj hj
          obtain rfl := Except.ok.inj (hfetched.page.symm.trans hfetched'.page)
          exact ⟨he, hlive⟩
        · exact absurd hfetched (hnot i rfl rfl page)
    · rw [Cache.Store.kept?_set_of_ne (Ne.symm hsame), Cache.Store.kept?_settle,
        Cache.Store.set_now, Cache.Store.settle_now]
      constructor
      · intro he
        refine .inr ⟨he, ?_, by simp [Step.takes], (Cache.Store.kept?_eq_some.mp he).2⟩
        rintro j hj hkey'
        obtain rfl := Step.respond.inj hj
        exact absurd hkey' hsame
      · rintro (⟨j, page', hj, hkey', -⟩ | ⟨he, -⟩)
        · obtain rfl := Step.respond.inj hj
          exact absurd hkey' hsame
        · exact he
  · have hnow : store'.now = store.now := by
      rcases hstore with rfl | rfl
      · rfl
      · exact Cache.Store.settle_now store _
    have hlive (key : String) : store'.kept? key = store.kept? key := by
      rcases hstore with rfl | rfl
      · rfl
      · exact Cache.Store.kept?_settle store _ key
    refine ⟨store', hcache, by simp [Step.seconds, hnow], fun key hkey e => ?_⟩
    rw [hlive, hnow]
    have hnot (j : Inquiry) (hj : Step.respond i = .respond j) (hj' : j.pageKey p.config = key) :
        ∀ page, ¬ p.Fetches j page := by
      obtain rfl := Step.respond.inj hj
      exact hnone (hj' ▸ hkey)
    constructor
    · intro he
      exact .inr ⟨he, hnot, by simp [Step.takes], (Cache.Store.kept?_eq_some.mp he).2⟩
    · rintro (⟨j, page, hj, hkey', hfetched, -⟩ | ⟨he, -⟩)
      · exact absurd hfetched (hnot j hj hkey' page)
      · exact he

theorem clears_eq (h : Stands cfg waiting store p) (labels : List String) :
    p.clears labels = Step.under labels := by
  rw [clears, if_pos h.cache.enabled, Step.under]

theorem clearsAll_eq (h : Stands cfg waiting store p) : p.clearsAll = [.all] := by
  rw [clearsAll, if_pos h.cache.enabled]

/-- What one step leaves. -/
theorem Stands.step (h : Stands cfg waiting store p) (hcount : cfg.countCache = false) (s : Step)
    (hs : 0 ≤ s.seconds) :
    ∃ store', Stands cfg (s.leaves waiting) store' (p.step s) ∧
      Turns p waiting s store store' := by
  cases s with
  | respond i =>
    obtain ⟨rfl, hscheduled, hcache⟩ := h
    obtain ⟨store', hcache', hlive⟩ := Turns.of_respond hcount hcache i
    exact ⟨store', ⟨rfl, hscheduled, hcache'⟩, hlive⟩
  | advance seconds =>
    obtain ⟨rfl, hscheduled, hcache⟩ := h
    refine ⟨_, ⟨rfl, hscheduled, advance_holds hcache seconds⟩, ?_⟩
    refine .of_quiet (by simp) rfl fun key e => ?_
    have hseconds : 0 ≤ seconds := hs
    rw [Cache.Store.kept?_advance hseconds]
    simp [Step.takes, Cache.Store.advance]
  | clear labels now =>
    have hclears := clears_eq h labels
    obtain ⟨rfl, hscheduled, hcache⟩ := h
    cases now with
    | true =>
      obtain ⟨store', hcache', hnow, hlive⟩ := performAll_store (p.clears labels) hcache
      refine ⟨store', ⟨rfl, hscheduled, hcache'⟩, .of_clears (by simp) rfl hnow ?_⟩
      rw [hclears] at hlive
      exact hlive
    | false =>
      refine ⟨store, ⟨rfl, ?_, hcache⟩, .of_clears (by simp) rfl rfl (by simp [Step.takes])⟩
      show p.scheduled ++ p.clears labels = waiting ++ Step.under labels
      rw [hscheduled, hclears]
  | clearAll now =>
    have hclears := clearsAll_eq h
    obtain ⟨rfl, hscheduled, hcache⟩ := h
    cases now with
    | true =>
      obtain ⟨store', hcache', hnow, hlive⟩ := performAll_store p.clearsAll hcache
      refine ⟨store', ⟨rfl, hscheduled, hcache'⟩, .of_clears (by simp) rfl hnow ?_⟩
      rw [hclears] at hlive
      exact hlive
    | false =>
      refine ⟨store, ⟨rfl, ?_, hcache⟩, .of_clears (by simp) rfl rfl (by simp [Step.takes])⟩
      show p.scheduled ++ p.clearsAll = waiting ++ [.all]
      rw [hscheduled, hclears]
  | drain =>
    obtain ⟨rfl, rfl, hcache⟩ := h
    obtain ⟨store', hcache', hnow, hlive⟩ := performAll_store p.scheduled hcache
    exact ⟨store', ⟨rfl, rfl, hcache'⟩, .of_clears (by simp) rfl hnow hlive⟩

end

/-! ### Runs -/

end Paginator

end Paging
