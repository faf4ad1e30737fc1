import Paging.Proofs.History
import Paging.Proofs.Projection
import Paging.Proofs.Transparency
import Paging.Proofs.Window

/-! Failures. When an executor fails, its request is answered at once, with an empty page or with
the failure itself, and the cache is left as it was but for a count that was already taken. So the
next request runs again as if nothing had happened. -/
namespace Paging

/-- An executor fails at a call. -/
def Call.Fails (ex : Executor) (e : ExecutionError) : Call → Prop
  | .count q => ex.count q = .error e
  | .fetch q fields => ex.fetch q fields = .error e

/-! ### The page of a failed query -/

namespace Page

/-- A page that shows a failure: no rows, no counts, and the message only where it may show. -/
structure IsFailure (d : Descriptor) (surface : Bool) (message : String) (p : Page) : Prop where
  items : p.items = []
  page : p.page = d.page
  size : p.size = d.size
  total : p.total = 0
  totalPages : p.totalPages = 0
  maxPage : p.maxPage = 0
  visible : p.visible = 0
  last : p.last = false
  first : p.first = true ↔ d.page = 1
  error : p.error = surface
  errorMessage : p.errorMessage = if surface then some message else none
  errorFields : p.toFields.filter (fun (f : Text × Value) =>
      f.1 == "error" || f.1 == "error_message") =
    (if surface then [("error", .bool true), ("error_message", .text message)] else [] : Fields)

theorem isFailure_buildError {cfg : Config} {r : Request} {q : Query}
    (hq : Query.ofDescriptor cfg (.ofRequest cfg r) = .ok q) (message : String) (surface : Bool) :
    (buildError message q (.ofRequest cfg r) surface).IsFailure (.ofRequest cfg r) surface
      message := by
  set d := Descriptor.ofRequest cfg r
  have hsize : 1 ≤ d.size := Descriptor.one_le_size cfg r
  have hpage : 1 ≤ d.page := Descriptor.one_le_page cfg r
  have hoffset : q.offset = (d.page - 1) * d.size := (Query.window_of_ofDescriptor hq).2
  have hfirst : q.offset < 1 ↔ d.page = 1 := by
    rw [hoffset]
    constructor
    · intro hlt
      by_contra hne
      have hmul : 1 * 1 ≤ (d.page - 1) * d.size := mul_le_mul (by omega) hsize (by omega) (by omega)
      omega
    · intro h
      simp [h]
  have hlast : (d.page == 0) = false := by
    simpa using (by omega : d.page ≠ 0)
  cases surface <;> constructor <;>
    simp [buildError, build, Metrics.compute, Metrics.pageCount, hlast, hfirst, toFields, allFields]

theorem ofJson_toString_ne (n : ℤ) (page : Page) : ofJson (toString n) ≠ .ok page := by
  have htext : (toString n : Text).toList = Json.stored.chars (.int n) := rfl
  have hstorable : (Value.int n).IsStorable := trivial
  have hgives := Json.outcome_gives storedRoom (.int n)
  rw [ofJson, htext, Json.read_stored hstorable]
  cases hread : Json.outcome storedRoom (.int n) with
  | error e => intro h; cases h
  | ok v =>
    obtain rfl : v = .int n := hgives v hread
    intro h
    cases h

end Page

/-! ### What running a query leaves -/

namespace Cache.Store

def look (s : Store) (key : String) : Store := if key = "" then s else s.settle key

@[simp] theorem kept?_look (s : Store) (key key' : String) :
    (s.look key).kept? key' = s.kept? key' := by
  rw [look]
  split
  · rfl
  · exact kept?_settle s key key'

/-- No page lives under a key. -/
def Unpaged (key : String) (s : Store) : Prop :=
  ∀ e, s.kept? key = some e → ∀ page, Page.ofJson e.text ≠ .ok page

end Cache.Store

namespace Outcome

open Cache

variable {cfg : Config} {ex : Executor} {q : Query} {fields : List Text} {g : Gateway}
  {ttl : Option Int} {s : Store}

/-- The store after the count of a query was looked for. -/
def looked (cfg : Config) (ex : Executor) (q : Query) (s : Store) : Store :=
  if cfg.countCache then s.settle (countKey ex.name q) else s

def kept (cfg : Config) (ex : Executor) (q : Query) (n : ℤ) (ttl : Option Int) (s : Store) :
    Store :=
  if cfg.countCache then s.set (countKey ex.name q) (toString n) ttl else s

/-- How rows are come by where the cache works, with the calls that this takes, what comes of it and
the store that it leaves. -/
inductive Runs (cfg : Config) (ex : Executor) (q : Query) (fields : List Text)
    (ttl : Option Int) (s : Store) :
    List Call → Except ExecutionError (List Row × ℤ) → Store → Prop
  /-- The rows cannot be counted. -/
  | uncounted {e : ExecutionError} (hcount : ex.count q = .error e) :
      Runs cfg ex q fields ttl s [.count q] (.error e) (looked cfg ex q s)
  /-- They are counted and fetched. -/
  | counted {n : ℤ} (hcount : ex.count q = .ok n) :
      Runs cfg ex q fields ttl s [.count q, .fetch q fields]
        ((ex.fetch q fields).map fun items => (items, n))
        (kept cfg ex q n ttl (looked cfg ex q s))
  /-- Their count is kept, and they are only fetched. -/
  | known (n : ℤ) (hcache : cfg.countCache = true) :
      Runs cfg ex q fields ttl s [.fetch q fields]
        ((ex.fetch q fields).map fun items => (items, n)) (looked cfg ex q s)

theorem countKey_ne_empty (table : String) (q : Query) : countKey table q ≠ "" := by
  intro h
  have hlength := congrArg String.length h
  simp [countKey, countLabel] at hlength

/-- Taking the count of a query. -/
theorem total_cases (cfg : Config) (ex : Executor) (q : Query) (hg : g.Holds ttl s) :
    let o := total cfg ex q g
    (∃ e, ex.count q = .error e ∧ o.result = .error e ∧ o.calls = [.count q] ∧
      o.cache.Holds ttl (looked cfg ex q s)) ∨
    (∃ n, ex.count q = .ok n ∧ o.result = .ok n ∧ o.calls = [.count q] ∧
      o.cache.Holds ttl (kept cfg ex q n ttl (looked cfg ex q s))) ∨
    ∃ n, cfg.countCache = true ∧ o.result = .ok n ∧ o.calls = [] ∧
      o.cache.Holds ttl (looked cfg ex q s) := by
  intro o
  by_cases hcache : cfg.countCache = true
  · have hkey := countKey_ne_empty ex.name q
    have hget := (hg.getCount hkey).2
    have hlooked : looked cfg ex q s = s.settle (countKey ex.name q) := if_pos hcache
    have hkept (n : ℤ) : kept cfg ex q n ttl (looked cfg ex q s) =
        (s.settle (countKey ex.name q)).set (countKey ex.name q) (toString n) ttl := by
      rw [kept, if_pos hcache, hlooked]
    have ho : o = total cfg ex q g := rfl
    rw [total, if_pos (by simp [hcache, hg.enabled])] at ho
    dsimp only at ho
    split at ho
    · rename_i n g' hfound
      rw [hfound] at hget
      rw [ho, hlooked]
      exact .inr (.inr ⟨n, hcache, rfl, rfl, hget⟩)
    · rename_i g' hmissing
      rw [hmissing] at hget
      cases hcount : ex.count q with
      | ok n =>
        rw [hcount] at ho
        refine .inr (.inl ⟨n, rfl, ?_⟩)
        rw [ho, hkept]
        exact ⟨rfl, rfl, hget.write hkey _⟩
      | error e =>
        rw [hcount] at ho
        refine .inl ⟨e, rfl, ?_⟩
        rw [ho, hlooked]
        exact ⟨rfl, rfl, hget⟩
  · have ho : o = ⟨ex.count q, [.count q], g⟩ := total_eq fun h => absurd h hcache
    have hlooked : looked cfg ex q s = s := if_neg hcache
    have hkept (n : ℤ) : kept cfg ex q n ttl (looked cfg ex q s) = s := by
      rw [kept, if_neg hcache, hlooked]
    rw [ho]
    cases hcount : ex.count q with
    | ok n => exact .inr (.inl ⟨n, rfl, rfl, rfl, (hkept n).symm ▸ hg⟩)
    | error e => exact .inl ⟨e, rfl, rfl, rfl, hlooked.symm ▸ hg⟩

theorem rows_runs (hg : g.Holds ttl s) (cfg : Config) (ex : Executor) (q : Query)
    (fields : List Text) :
    ∃ s', Runs cfg ex q fields ttl s (rows cfg ex q fields g).calls
        (rows cfg ex q fields g).result s' ∧
      (rows cfg ex q fields g).cache.Holds ttl s' := by
  rcases total_cases cfg ex q hg with ⟨e, hcount, hresult, hcalls, hcache⟩ |
    ⟨n, hcount, hresult, hcalls, hcache⟩ | ⟨n, hon, hresult, hcalls, hcache⟩
  · have hrows : rows cfg ex q fields g = ⟨.error e, [.count q], (total cfg ex q g).cache⟩ := by
      simp only [rows, hresult, hcalls]
    rw [hrows]
    exact ⟨_, .uncounted hcount, hcache⟩
  · have hrows : rows cfg ex q fields g =
        ⟨(ex.fetch q fields).map fun items => (items, n), [.count q, .fetch q fields],
          (total cfg ex q g).cache.note (ex.remarks fields)⟩ := by
      simp only [rows, hresult, hcalls, List.singleton_append]
    rw [hrows]
    exact ⟨_, .counted hcount, hcache.note _⟩
  · have hrows : rows cfg ex q fields g =
        ⟨(ex.fetch q fields).map fun items => (items, n), [.fetch q fields],
          (total cfg ex q g).cache.note (ex.remarks fields)⟩ := by
      simp only [rows, hresult, hcalls, List.nil_append]
    rw [hrows]
    exact ⟨_, .known n hon, hcache.note _⟩

namespace Runs

variable {calls : List Call} {result : Except ExecutionError (List Row × ℤ)} {s' : Store}

theorem result_eq (h : Runs cfg ex q fields ttl s calls result s') {c : Call} (hc : c ∈ calls)
    {e : ExecutionError} (he : c.Fails ex e) : result = .error e := by
  have hfetched {n : ℤ} (he : (Call.fetch q fields).Fails ex e) :
      ((ex.fetch q fields).map fun items => (items, n)) = .error e := by
    rw [Call.Fails] at he
    rw [he]
    rfl
  cases h with
  | uncounted hcount =>
    obtain rfl := List.mem_singleton.mp hc
    exact congrArg _ (Except.error.inj (hcount.symm.trans he))
  | counted hcount =>
    rcases List.mem_cons.mp hc with rfl | hc
    · exact absurd (hcount.symm.trans he) nofun
    · obtain rfl := List.mem_singleton.mp hc
      exact hfetched he
  | known n =>
    obtain rfl := List.mem_singleton.mp hc
    exact hfetched he

theorem calls_ne_nil (h : Runs cfg ex q fields ttl s calls result s') : calls ≠ [] := by
  cases h <;> exact List.cons_ne_nil _ _

theorem store_eq (h : Runs cfg ex q fields ttl s calls result s') :
    (cfg.countCache = true → calls = [.count q, .fetch q fields] → ∃ n, ex.count q = .ok n ∧
      s' = (looked cfg ex q s).set (countKey ex.name q) (toString n) ttl) ∧
    (¬ (cfg.countCache = true ∧ calls = [.count q, .fetch q fields]) → s' = looked cfg ex q s) := by
  cases h with
  | uncounted | known => exact ⟨fun _ => nofun, fun _ => rfl⟩
  | counted hcount =>
    refine ⟨fun hcache _ => ⟨_, hcount, if_pos hcache⟩, fun hnot => if_neg fun hcache => ?_⟩
    exact hnot ⟨hcache, rfl⟩

theorem kept?_looked (cfg : Config) (ex : Executor) (q : Query) (s : Store) (key : String) :
    (looked cfg ex q s).kept? key = s.kept? key := by
  rw [looked]
  split
  · exact Store.kept?_settle _ _ _
  · rfl

theorem kept?_eq (h : Runs cfg ex q fields ttl s calls result s') {key : String}
    (hkey : key ≠ countKey ex.name q) : s'.kept? key = s.kept? key := by
  obtain ⟨hcounted, hnot⟩ := h.store_eq
  by_cases hkept : cfg.countCache = true ∧ calls = [.count q, .fetch q fields]
  · obtain ⟨n, -, hs'⟩ := hcounted hkept.1 hkept.2
    rw [hs', Store.kept?_set_of_ne hkey, kept?_looked]
  · rw [hnot hkept, kept?_looked]

theorem kept?_or (h : Runs cfg ex q fields ttl s calls result s') {key : String} {e : Entry}
    (he : s'.kept? key = some e) : s.kept? key = some e ∨ ∃ n : ℤ, e.text = toString n := by
  obtain ⟨hcounted, hnot⟩ := h.store_eq
  by_cases hkey : key = countKey ex.name q
  · by_cases hkept : cfg.countCache = true ∧ calls = [.count q, .fetch q fields]
    · obtain ⟨n, -, hs'⟩ := hcounted hkept.1 hkept.2
      rw [hs', hkey, Store.kept?_set_self] at he
      exact .inr ⟨n, he.1 ▸ rfl⟩
    · rw [hnot hkept, kept?_looked] at he
      exact .inl he
  · exact .inl (h.kept?_eq hkey ▸ he)

end Runs

end Outcome

/-! ### One inquiry -/

/-- A query that is run leaves what its run leaves, and its page if it has one. -/
theorem Answer.ofQuery_runs {g : Cache.Gateway} {ttl : Option Int} {s : Cache.Store}
    (hg : g.Holds ttl s) (cfg : Config) (ex : Executor) (d : Descriptor) (q : Query)
    (fields : List Text) (key : String) :
    let a := ofQuery cfg ex d q fields key g
    ∃ result s', Outcome.Runs cfg ex q fields ttl s a.calls result s' ∧
      a.page = pageOf cfg d q result ∧
      (∀ e, result = .error e → a.cache.Holds ttl s') ∧
      ∀ r, result = .ok r →
        ∃ s'', a.cache.Holds ttl s'' ∧ ∀ key' ≠ key, s''.kept? key' = s'.kept? key' := by
  intro a
  obtain ⟨s', hruns, hcache⟩ := Outcome.rows_runs hg cfg ex q fields
  refine ⟨_, s', calls_ofQuery ▸ hruns, ofQuery_page .., fun e he => ?_, fun r hr => ?_⟩
  · cases e with
    | refused message statement =>
      simp only [a, ofQuery, he]
      exact hcache.note _
    | missingParameter | other message =>
      simp only [a, ofQuery, he]
      exact hcache
  · have ha : a.cache = (Outcome.rows cfg ex q fields g).cache.storePage key
        (Page.build r.1 r.2 q d) := by
      simp only [a, ofQuery, hr]
    rw [ha]
    by_cases hkey : key = ""
    · exact ⟨s', hkey ▸ hcache.write_empty _, fun _ _ => rfl⟩
    · exact ⟨_, hcache.write hkey _, fun key' hne => Cache.Store.kept?_set_of_ne hne⟩

theorem Cache.Gateway.Holds.getPage_eq_none_iff {g : Gateway} {ttl : Option Int} {s : Store}
    (h : g.Holds ttl s) {key : String} (hkey : key ≠ "") :
    (g.getPage key).1 = none ↔ s.Unpaged key := by
  simp only [Option.eq_none_iff_forall_ne_some, ne_eq, (h.getPage hkey).1, Store.live?_eq,
    Option.map_eq_some_iff, Store.Unpaged]
  constructor
  · exact fun h e he page hpage => h page ⟨e.text, ⟨e, he, rfl⟩, hpage⟩
  · rintro h page ⟨text, ⟨e, he, rfl⟩, hpage⟩
    exact h e he page hpage

namespace Paginator

/-- The executor of an inquiry fails at one of the calls that the inquiry takes. -/
def Fails (p : Paginator) (i : Inquiry) (e : ExecutionError) : Prop :=
  ∃ c ∈ (p.respond i).1.calls, c.Fails i.executor e

section

variable {p : Paginator} {i : Inquiry} {q : Query} {e : ExecutionError} {ttl : Option Int}
  {store : Cache.Store}

theorem respond_runs (hp : p.cache.Holds ttl store) (hq : i.query p.config = .ok q) :
    let key := i.pageKey p.config
    (key ≠ "" ∧ ¬ store.Unpaged key ∧ (p.respond i).1.calls = [] ∧
      (p.respond i).1.cache.Holds ttl (store.look key)) ∨
    (key ≠ "" → store.Unpaged key) ∧ ∃ g : Cache.Gateway, g.Holds ttl (store.look key) ∧
      (p.respond i).1 = Answer.ofQuery (i.config p.config) i.executor (i.descriptor p.config) q
        (i.fields p.config) key g := by
  intro key
  have hnoted : (p.noted i).Holds ttl store := hp.note _
  by_cases hkey : key = ""
  · refine .inr ⟨absurd hkey, p.noted i, ?_, ?_⟩
    · rw [Cache.Store.look, if_pos hkey]
      exact hnoted
    · rw [respond_of_ok hq, Answer.ofKey, if_neg (by simp [key, hkey])]
  · have hget : ((p.noted i).getPage key).2.Holds ttl (store.look key) := by
      rw [Cache.Store.look, if_neg hkey]
      exact (hnoted.getPage hkey).2
    cases hfound : ((p.noted i).getPage key).1 with
    | some page =>
      have hpaged : ¬ store.Unpaged key := by
        rw [← hnoted.getPage_eq_none_iff hkey, hfound]
        exact Option.some_ne_none page
      have hanswer := respond_of_found hp.enabled hkey hq hfound
      exact .inl ⟨hkey, hpaged, by rw [hanswer], by rw [hanswer]; exact hget⟩
    | none =>
      have hunpaged := (hnoted.getPage_eq_none_iff hkey).mp hfound
      exact .inr ⟨fun _ => hunpaged, _, hget, respond_of_missing hp.enabled hkey hq hfound⟩

theorem Fails.runs (hp : p.cache.Holds ttl store) (h : p.Fails i e) :
    ∃ q store', i.query p.config = .ok q ∧
      (i.pageKey p.config ≠ "" → store.Unpaged (i.pageKey p.config)) ∧
      Outcome.Runs (i.config p.config) i.executor q (i.fields p.config) ttl
        (store.look (i.pageKey p.config)) (p.respond i).1.calls (.error e) store' ∧
      (p.respond i).1.page =
        Answer.pageOf (i.config p.config) (i.descriptor p.config) q (.error e) ∧
      (p.respond i).1.cache.Holds ttl store' := by
  obtain ⟨c, hc, he⟩ := h
  cases hq : i.query p.config with
  | error e =>
    rw [respond_of_error hq] at hc
    cases hc
  | ok q =>
    rcases respond_runs hp hq with ⟨-, -, hcalls, -⟩ | ⟨hunpaged, g, hg, hanswer⟩
    · rw [hcalls] at hc
      cases hc
    · have hran := Answer.ofQuery_runs hg (i.config p.config) i.executor
        (i.descriptor p.config) q (i.fields p.config) (i.pageKey p.config)
      rw [← hanswer] at hran
      obtain ⟨result, store', hruns, hpage, hcache, -⟩ := hran
      obtain rfl := hruns.result_eq hc he
      exact ⟨q, store', rfl, hunpaged, hruns, hpage, hcache e rfl⟩

/-- An inquiry adds counts, and the page under its own key if it runs without a failure. -/
theorem respond_adds (hp : p.cache.Holds ttl store) (i : Inquiry) :
    ∃ store', (p.respond i).1.cache.Holds ttl store' ∧
      ∀ key e, store'.kept? key = some e → store.kept? key = some e ∨
        (∃ n : ℤ, e.text = toString n) ∨
        i.pageKey p.config = key ∧ (p.respond i).1.calls ≠ [] ∧ ∀ e, ¬ p.Fails i e := by
  cases hq : i.query p.config with
  | error e =>
    rw [respond_of_error hq]
    exact ⟨store, hp.note _, fun key e he => .inl he⟩
  | ok q =>
    rcases respond_runs hp hq with ⟨-, -, -, hcache⟩ | ⟨-, g, hg, hanswer⟩
    · exact ⟨_, hcache, fun key e he => .inl (by simpa using he)⟩
    · have hran := Answer.ofQuery_runs hg (i.config p.config) i.executor
        (i.descriptor p.config) q (i.fields p.config) (i.pageKey p.config)
      rw [← hanswer] at hran
      obtain ⟨result, store', hruns, -, hfailed, hdone⟩ := hran
      have hadds {key : String} {e : Cache.Entry} (he : store'.kept? key = some e) :
          store.kept? key = some e ∨ ∃ n : ℤ, e.text = toString n := by
        simpa using hruns.kept?_or he
      cases result with
      | error e => exact ⟨store', hfailed e rfl, fun key e he => (hadds he).imp_right .inl⟩
      | ok r =>
        obtain ⟨store'', hcache, hother⟩ := hdone r rfl
        refine ⟨store'', hcache, fun key e he => ?_⟩
        by_cases hkey : key = i.pageKey p.config
        · refine .inr (.inr ⟨hkey.symm, hruns.calls_ne_nil, ?_⟩)
          rintro e ⟨c, hc, he⟩
          exact absurd (hruns.result_eq hc he) nofun
        · exact (hadds (hother key hkey ▸ he)).imp_right .inl

/-! ### Runs -/

theorem step_adds (hp : p.cache.Holds ttl store) (s : Step) :
    ∃ store', (p.step s).cache.Holds ttl store' ∧ (0 ≤ s.seconds →
      ∀ key e, store'.kept? key = some e → store.kept? key = some e ∨
        (∃ n : ℤ, e.text = toString n) ∨
        ∃ i, s = .respond i ∧ i.pageKey p.config = key ∧ ∀ e, ¬ p.Fails i e) := by
  have hforget (cs : List Clear) (now : Bool) : ∃ store', (p.forget cs now).cache.Holds ttl store' ∧
      ∀ key e, store'.kept? key = some e → store.kept? key = some e := by
    cases now with
    | true =>
      obtain ⟨store', hcache, -, hlive⟩ := performAll_store cs hp
      exact ⟨store', hcache, fun key e he => ((hlive key e).mp he).1⟩
    | false => exact ⟨store, hp, fun key e he => he⟩
  cases s with
  | respond i =>
    obtain ⟨store', hcache, hadds⟩ := respond_adds hp i
    refine ⟨store', hcache, fun _ key e he => (hadds key e he).imp_right (.imp_right ?_)⟩
    exact fun ⟨hkey, _, hnone⟩ => ⟨i, rfl, hkey, hnone⟩
  | advance seconds =>
    refine ⟨_, advance_holds hp seconds, fun hseconds key e he => .inl ?_⟩
    exact ((Cache.Store.kept?_advance hseconds).mp he).1
  | clear labels now =>
    obtain ⟨store', hcache, hlive⟩ := hforget (p.clears labels) now
    exact ⟨store', hcache, fun _ key e he => .inl (hlive key e he)⟩
  | clearAll now =>
    obtain ⟨store', hcache, hlive⟩ := hforget p.clearsAll now
    exact ⟨store', hcache, fun _ key e he => .inl (hlive key e he)⟩
  | drain =>
    obtain ⟨store', hcache, hlive⟩ := hforget p.scheduled true
    exact ⟨store', hcache, fun _ key e he => .inl (hlive key e he)⟩

/-- The cache works after a run, and no page comes to live under a key if all inquiries with this
key fail. -/
theorem run_unpaged (hp : p.cache.Holds ttl store) (steps : List Step) :
    ∃ store', (p.run steps).cache.Holds ttl store' ∧ ∀ key, store.Unpaged key →
      (∀ s ∈ steps, 0 ≤ s.seconds) →
      (∀ past j later, steps = past ++ .respond j :: later → j.pageKey p.config = key →
        ∃ e, (p.run past).Fails j e) → store'.Unpaged key := by
  induction steps using List.reverseRecOn with
  | nil => exact ⟨store, hp, fun key h _ _ => h⟩
  | append_singleton steps s ih =>
    obtain ⟨store₁, hcache₁, hunpaged₁⟩ := ih
    obtain ⟨store₂, hcache₂, hadds⟩ := step_adds hcache₁ s
    rw [run_concat]
    refine ⟨store₂, hcache₂, fun key hunpaged hseconds hfail e he page => ?_⟩
    have hbefore : store₁.Unpaged key := by
      refine hunpaged₁ key hunpaged (fun x hx => hseconds x (by simp [hx])) ?_
      rintro past j later rfl hj
      exact hfail past j (later ++ [s]) (by simp) hj
    rcases hadds (hseconds s (by simp)) key e he with hkept | ⟨n, hn⟩ | ⟨i, rfl, hi, hnone⟩
    · exact hbefore e hkept page
    · rw [hn]
      exact Page.ofJson_toString_ne n page
    · rw [run_config] at hi
      obtain ⟨e, hfails⟩ := hfail steps i [] rfl hi
      exact absurd hfails (hnone e)

theorem respond_anew (hp : p.cache.Holds ttl store) (hq : i.query p.config = .ok q)
    (hunpaged : i.pageKey p.config ≠ "" → store.Unpaged (i.pageKey p.config)) {n : ℤ}
    (hcount : i.executor.count q = .ok n) {items : List Row}
    (hfetch : i.executor.fetch q (i.fields p.config) = .ok items) :
    let answer := (p.respond i).1
    (answer.calls = [.count q, .fetch q (i.fields p.config)] ∧
      answer.page = .ok (.build items n q (i.descriptor p.config))) ∨
    p.config.countCache = true ∧ answer.calls = [.fetch q (i.fields p.config)] ∧
      ∃ total, answer.page = .ok (.build items total q (i.descriptor p.config)) := by
  intro answer
  rcases respond_runs hp hq with ⟨hkey, hpaged, -⟩ | ⟨-, g, hg, hanswer⟩
  · exact absurd (hunpaged hkey) hpaged
  · have hran := Answer.ofQuery_runs hg (i.config p.config) i.executor (i.descriptor p.config) q
      (i.fields p.config) (i.pageKey p.config)
    rw [← hanswer] at hran
    obtain ⟨result, store', hruns, hpage, -⟩ := hran
    have hcalls : answer.calls = (p.respond i).1.calls := rfl
    generalize (p.respond i).1.calls = calls at hruns hcalls
    cases hruns with
    | uncounted hcount' => exact absurd (hcount.symm.trans hcount') nofun
    | counted hcount' =>
      obtain rfl := Except.ok.inj (hcount.symm.trans hcount')
      rw [hfetch] at hpage
      exact .inl ⟨hcalls, hpage⟩
    | known total hcache =>
      rw [hfetch] at hpage
      exact .inr ⟨hcache, hcalls, total, hpage⟩

end

theorem Inquiry.alike_of_dialect (cfg : Config) (i : Inquiry) {ex : Executor}
    (h : ex.dialect = i.executor.dialect) :
    let j : Inquiry := { i with executor := ex }
    j.descriptor cfg = i.descriptor cfg ∧ j.query cfg = i.query cfg ∧
      j.fields cfg = i.fields cfg ∧ j.pageKey cfg = i.pageKey cfg := by
  simp only [descriptor, query, fields, pageKey, config, h, and_self]

def Inquiry.looks (cfg : Config) (i : Inquiry) (q : Query) (store : Cache.Store) : Cache.Store :=
  Outcome.looked cfg i.executor q (store.look (i.pageKey cfg))

/-- What an inquiry that fails leaves of a store. The count is kept if counts are and it was taken
before the rows could not be fetched, and no page is added or changed: that none is changed rests on
the digest, which keeps pages and counts apart. -/
structure Leaves (cfg : Config) (i : Inquiry) (q : Query) (calls : List Call)
    (store store' : Cache.Store) : Prop where
  counted : cfg.countCache = true → calls = [.count q, .fetch q (i.fields cfg)] →
    ∃ n, i.executor.count q = .ok n ∧
      store' = (i.looks cfg q store).set (Cache.countKey i.executor.name q) (toString n)
        cfg.cacheTtl
  uncounted : ¬ (cfg.countCache = true ∧ calls = [.count q, .fetch q (i.fields cfg)]) →
    store' = i.looks cfg q store
  added : ∀ key entry page, store'.kept? key = some entry → Page.ofJson entry.text = .ok page →
    store.kept? key = some entry
  changed : ∀ label d selected, label ≠ "" →
    (Digest.md5 (Cache.digestInput (Cache.pagePayload d selected)) =
        Digest.md5 (Cache.digestInput (Cache.countPayload q)) →
      Cache.digestInput (Cache.pagePayload d selected) =
        Cache.digestInput (Cache.countPayload q)) →
    store'.kept? (Cache.pageKey label d selected) = store.kept? (Cache.pageKey label d selected)

theorem Leaves.of_runs {cfg : Config} {i : Inquiry} {q : Query} {calls : List Call}
    {result : Except ExecutionError (List Row × Int)} {store store' : Cache.Store}
    (h : Outcome.Runs (i.config cfg) i.executor q (i.fields cfg) cfg.cacheTtl
      (store.look (i.pageKey cfg)) calls result store') : Leaves cfg i q calls store store' := by
  obtain ⟨hcounted, huncounted⟩ := h.store_eq
  refine ⟨hcounted, huncounted, fun key entry page hentry hpage => ?_, fun label d selected
    hlabel hdigest => ?_⟩
  · rcases h.kept?_or hentry with hkept | ⟨n, hn⟩
    · simpa using hkept
    · exact absurd (hn ▸ hpage) (Page.ofJson_toString_ne n page)
  · rw [h.kept?_eq (Cache.pageKey_ne_countKey hlabel hdigest), Cache.Store.kept?_look]

/-- The answer shows a failure: an empty page if the database refused the query, with the message
where errors may show, and else the failure itself. -/
def Shows (cfg : Config) (d : Descriptor) (page : Except RequestError Page) :
    ExecutionError → Prop
  | .refused message _ => ∃ failed, page = .ok failed ∧ failed.IsFailure d cfg.errorEnabled message
  | e => page = .error (.execution e)

theorem shows_pageOf {cfg : Config} {i : Inquiry} {q : Query} (hq : i.query cfg = .ok q)
    (e : ExecutionError) :
    Shows cfg (i.descriptor cfg) (Answer.pageOf (i.config cfg) (i.descriptor cfg) q (.error e))
      e := by
  cases e with
  | refused message statement => exact ⟨_, rfl, Page.isFailure_buildError hq message _⟩
  | missingParameter | other message => rfl

/-- An inquiry to an executor that does not fail is run anew, also after any steps in which those
with its page key fail. -/
def Recovers (p : Paginator) (i : Inquiry) (q : Query) : Prop :=
  ∀ since ex n items, (∀ s ∈ since, 0 ≤ s.seconds) →
    (∀ past j later, since = past ++ .respond j :: later → i.pageKey p.config ≠ "" →
      j.pageKey p.config = i.pageKey p.config → ∃ e, (p.run past).Fails j e) →
    ex.dialect = i.executor.dialect → ex.count q = .ok n →
    ex.fetch q (i.fields p.config) = .ok items →
    let answer := ((p.run since).respond { i with executor := ex }).1
    (answer.calls = [.count q, .fetch q (i.fields p.config)] ∧
      answer.page = .ok (.build items n q (i.descriptor p.config))) ∨
    p.config.countCache = true ∧ answer.calls = [.fetch q (i.fields p.config)] ∧
      ∃ total, answer.page = .ok (.build items total q (i.descriptor p.config))

theorem Recovers.of_unpaged {p : Paginator} {i : Inquiry} {q : Query} {ttl : Option Int}
    {store : Cache.Store} (hp : p.cache.Holds ttl store) (hq : i.query p.config = .ok q)
    (hunpaged : i.pageKey p.config ≠ "" → store.Unpaged (i.pageKey p.config)) :
    p.Recovers i q := by
  intro since ex n items hseconds hfail hdialect hcount hfetch
  obtain ⟨store', hcache, hkept⟩ := run_unpaged hp since
  obtain ⟨hdescriptor, hquery, hfields, hkey⟩ := i.alike_of_dialect p.config hdialect
  have hanew := respond_anew (i := { i with executor := ex }) (q := q) (n := n) hcache
  rw [run_config, hdescriptor, hquery, hfields, hkey] at hanew
  refine hanew hq (fun hne => hkept _ (hunpaged hne) hseconds ?_) hcount hfetch
  exact fun past j later hsince hj => hfail past j later hsince hne hj

/-- A failure leaves nothing behind. Take any run of a paginator with a cache that works, and an
inquiry at one of whose calls the executor fails. The failure shows in the answer, and the store is
what it was, but for a count that was taken and for what had expired under the keys of the inquiry.
So an executor that has recovered is asked again. -/
theorem failure_leaves_nothing (cfg : Config) (a : Cache.Adapter) (hworks : a.Works)
    (before : List Step) (i : Inquiry) (e : ExecutionError)
    (hfails : ((ofConfig cfg (some a)).run before).Fails i e) :
    let p := (ofConfig cfg (some a)).run before
    let answer := (p.respond i).1
    ∃ q store store', i.query cfg = .ok q ∧
      p.cache.Holds cfg.cacheTtl store ∧ answer.cache.Holds cfg.cacheTtl store' ∧
      Shows cfg (i.descriptor cfg) answer.page e ∧
      Leaves cfg i q answer.calls store store' ∧
      (p.step (.respond i)).Recovers i q := by
  intro p answer
  have hstart : (ofConfig cfg (some a)).cache.Holds cfg.cacheTtl a.store :=
    ⟨rfl, a, rfl, rfl, hworks⟩
  obtain ⟨store, hcache, -⟩ := run_unpaged hstart before
  have hconfig : p.config = cfg := run_config _ _
  obtain ⟨q, store', hq, hunpaged, hruns, hpage, hcache'⟩ := hfails.runs hcache
  have hnext : (p.step (.respond i)).config = cfg := (step_config p _).trans hconfig
  have hleaves : Leaves cfg i q answer.calls store store' := .of_runs (hconfig ▸ hruns)
  rw [run_config] at hq hunpaged hruns hpage
  refine ⟨q, store, store', hq, hcache, hcache', hpage ▸ shows_pageOf hq e, hleaves, ?_⟩
  refine .of_unpaged hcache' (hnext ▸ hq) fun hne entry hentry page hread => ?_
  rw [hnext] at hne hentry
  exact hunpaged hne entry (hleaves.added _ _ page hentry hread) page hread

def surfacingConfig : Config := { errorEnabled := true, cacheTtl := some 60, countCache := true }

def lostInquiry : Inquiry where
  executor :=
    { name := "users", count := fun _ => .ok 3, fetch := fun _ _ => .error (.refused "down" none) }
  label := "users:"

/-- The message shows, the count is kept, and half a minute later the rows are fetched. -/
theorem failure_leaves_nothing_counted :
    let p := (ofConfig surfacingConfig (some {})).run [.advance 5]
    let answer := (p.respond lostInquiry).1
    p.Fails lostInquiry (.refused "down" none) ∧
      (∃ page, answer.page = .ok page ∧ page.errorMessage = some "down") ∧
      let ex := Executor.ofRows "users" none [⟨.null, rfl⟩]
      let later := (p.step (.respond lostInquiry)).run [.advance 30]
      ∃ page, (later.respond { lostInquiry with executor := ex }).1.page = .ok page ∧
        page.items = [⟨.null, rfl⟩] := by
  intro p answer
  have hcalls : answer.calls = [.count {}, .fetch {} []] := by rfl
  have hfails : p.Fails lostInquiry (.refused "down" none) :=
    ⟨.fetch {} [], hcalls ▸ by simp, rfl⟩
  obtain ⟨q, store, store', hq, -, -, hshows, -, hrecovers⟩ := failure_leaves_nothing
    surfacingConfig {} (fun _ _ _ => rfl) [.advance 5] lostInquiry _ hfails
  obtain rfl : {} = q := Except.ok.inj (Eq.trans (by rfl) hq)
  obtain ⟨page, hpage, hfailure⟩ := hshows
  refine ⟨hfails, ⟨page, hpage, hfailure.errorMessage⟩, ?_⟩
  have hnone (past : List Step) (j : Inquiry) (later : List Step) :
      [.advance 30] ≠ past ++ .respond j :: later := by
    cases past <;> simp
  have hanew := hrecovers [.advance 30] (.ofRows "users" none [⟨.null, rfl⟩]) 1 [⟨.null, rfl⟩]
    (by simp [Step.seconds]) (fun past j later h => absurd h (hnone past j later)) rfl rfl rfl
  rcases hanew with ⟨-, hpage⟩ | ⟨-, -, total, hpage⟩
  · exact ⟨_, hpage, rfl⟩
  · exact ⟨_, hpage, rfl⟩

end Paginator

end Paging
