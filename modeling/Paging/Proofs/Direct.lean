import Paging.Proofs.Run

/-! Answers straight from the executor. Where rows are counted anew, a query that is not answered
from the cache has its rows counted once and, if that succeeds, fetched once. -/
namespace Paging

/-- Rows are counted anew for every query: the settings do not keep their number, or there is no
cache. -/
def Config.CountsAnew (cfg : Config) (g : Cache.Gateway) : Prop :=
  cfg.countCache = true → g.enabled = false

theorem Config.CountsAnew.of_countCache {cfg : Config} (h : cfg.countCache = false)
    (g : Cache.Gateway) : cfg.CountsAnew g := by
  simp [CountsAnew, h]

def Executor.calls (ex : Executor) (q : Query) (fields : List Text) : List Call :=
  .count q :: if (ex.count q).isOk then [.fetch q fields] else []

section

variable {cfg : Config} {ex : Executor} {q : Query} {fields : List Text} {g : Cache.Gateway}

theorem Outcome.total_eq (h : cfg.CountsAnew g) :
    total cfg ex q g = ⟨ex.count q, [.count q], g⟩ := by
  have hoff : ¬ (cfg.countCache && g.enabled) = true := by
    rw [Bool.and_eq_true]
    rintro ⟨hcount, henabled⟩
    simp [h hcount] at henabled
  rw [total, if_neg hoff]

theorem Outcome.rows_calls (h : cfg.CountsAnew g) :
    (rows cfg ex q fields g).calls = ex.calls q fields := by
  rw [rows, total_eq h, Executor.calls]
  cases ex.count q <;> rfl

theorem Outcome.rows_cache (h : cfg.CountsAnew g) :
    ∃ ns, (rows cfg ex q fields g).cache = g.note ns := by
  rw [rows, total_eq h]
  cases ex.count q with
  | ok n => exact ⟨_, rfl⟩
  | error e => exact ⟨[], by simp [Cache.Gateway.note]⟩

theorem Outcome.rows_result_eq_run (h : cfg.CountsAnew g) :
    (rows cfg ex q fields g).result = ex.run q fields :=
  rows_result fields (by rw [total_eq h])

theorem Answer.ofQuery_calls (h : cfg.CountsAnew g) (d : Descriptor) (key : String) :
    (ofQuery cfg ex d q fields key g).calls = ex.calls q fields := by
  have hcalls : (Outcome.rows cfg ex q fields g).calls = ex.calls q fields :=
    Outcome.rows_calls h
  rw [ofQuery, ← hcalls]
  cases (Outcome.rows cfg ex q fields g).result with
  | ok r => rfl
  | error e => cases e <;> rfl

theorem Answer.ofQuery_page_eq_run (h : cfg.CountsAnew g) (d : Descriptor) (key : String) :
    (ofQuery cfg ex d q fields key g).page = pageOf cfg d q (ex.run q fields) := by
  rw [ofQuery_page, Outcome.rows_result_eq_run h]

theorem Answer.ofQuery_cache_of_ok (h : cfg.CountsAnew g) {r : List Row × Int}
    (hrun : ex.run q fields = .ok r) (d : Descriptor) (key : String) :
    ∃ ns, (ofQuery cfg ex d q fields key g).cache =
      (g.note ns).storePage key (Page.build r.1 r.2 q d) := by
  have hnoted : ∃ ns, (Outcome.rows cfg ex q fields g).cache = g.note ns := Outcome.rows_cache h
  obtain ⟨ns, hcache⟩ := hnoted
  have hresult : (Outcome.rows cfg ex q fields g).result = .ok r := by
    rw [Outcome.rows_result_eq_run h, hrun]
  refine ⟨ns, ?_⟩
  simp only [ofQuery, hresult, hcache]

theorem Answer.ofQuery_cache_of_error (h : cfg.CountsAnew g) {e : ExecutionError}
    (hrun : ex.run q fields = .error e) (d : Descriptor) (key : String) :
    ∃ ns, (ofQuery cfg ex d q fields key g).cache = g.note ns := by
  have hnoted : ∃ ns, (Outcome.rows cfg ex q fields g).cache = g.note ns := Outcome.rows_cache h
  obtain ⟨ns, hcache⟩ := hnoted
  have hresult : (Outcome.rows cfg ex q fields g).result = .error e := by
    rw [Outcome.rows_result_eq_run h, hrun]
  cases e with
  | refused message statement =>
    refine ⟨ns ++ [⟨.error, Config.source, "Query on " ++ ex.name ++ " failed: " ++ message⟩], ?_⟩
    simp only [ofQuery, hresult, hcache, Cache.Gateway.note, List.append_assoc]
  | missingParameter | other _ => exact ⟨ns, by simp only [ofQuery, hresult, hcache]⟩

end

namespace Paginator

variable {p : Paginator} {i : Inquiry}

theorem Inquiry.countsAnew {cfg : Config} (h : cfg.countCache = false) (i : Inquiry)
    (g : Cache.Gateway) : (i.config cfg).CountsAnew g :=
  .of_countCache h g

def noted (p : Paginator) (i : Inquiry) : Cache.Gateway :=
  p.cache.note (Descriptor.notices (i.config p.config) i.request ++
    Query.notices (i.config p.config) (i.descriptor p.config))

theorem respond_of_error {e : Text.TemplateError} (h : i.query p.config = .error e) :
    (p.respond i).1 = ⟨.error (.template e), [], p.noted i⟩ := by
  have hquery : Query.ofDescriptor (i.config p.config)
      (Descriptor.ofRequest (i.config p.config) i.request) = .error e := h
  show Answer.ofRequest (i.config p.config) i.executor i.request i.label i.allowed p.cache = _
  simp only [Answer.ofRequest, hquery]
  rfl

theorem respond_of_ok {q : Query} (h : i.query p.config = .ok q) :
    (p.respond i).1 = Answer.ofKey (i.config p.config) i.executor (i.descriptor p.config) q
      (i.fields p.config) (i.pageKey p.config) (p.noted i) := by
  have hquery : Query.ofDescriptor (i.config p.config)
      (Descriptor.ofRequest (i.config p.config) i.request) = .ok q := h
  show Answer.ofRequest (i.config p.config) i.executor i.request i.label i.allowed p.cache = _
  simp only [Answer.ofRequest, hquery]
  rfl

/-- An inquiry with a query is answered with a page that was found, without a call, or by running
the query. -/
theorem respond_found_or_run (hcount : p.config.countCache = false) {q : Query}
    (hq : i.query p.config = .ok q) :
    (∃ page, (p.respond i).1.calls = [] ∧ (p.respond i).1.page = .ok page) ∨
      ((p.respond i).1.calls = i.executor.calls q (i.fields p.config) ∧
        (p.respond i).1.page = i.uncached p.config) := by
  have hresolved := Inquiry.countsAnew hcount i
  have hrun (g : Cache.Gateway) :
      let a := Answer.ofQuery (i.config p.config) i.executor (i.descriptor p.config) q
        (i.fields p.config) (i.pageKey p.config) g
      a.calls = i.executor.calls q (i.fields p.config) ∧ a.page = i.uncached p.config := by
    intro a
    rw [Inquiry.uncached_eq hq]
    exact ⟨Answer.ofQuery_calls (hresolved g) _ _, Answer.ofQuery_page_eq_run (hresolved g) _ _⟩
  rw [respond_of_ok hq, Answer.ofKey]
  split
  · split
    · rename_i page g hget
      exact .inl ⟨page, rfl, rfl⟩
    · exact .inr (hrun _)
  · exact .inr (hrun _)

theorem respond_page_of_label (hcount : p.config.CountsAnew p.cache) (hlabel : i.label = "") :
    (p.respond i).1.page = i.uncached p.config := by
  have hresolved : (i.config p.config).CountsAnew (p.noted i) := hcount
  have hkey : i.pageKey p.config = "" := by
    rw [Inquiry.pageKey, hlabel, Cache.pageKey_empty]
  cases hq : i.query p.config with
  | error e => rw [respond_of_error hq, Inquiry.uncached, hq]
  | ok q =>
    rw [respond_of_ok hq, Inquiry.uncached_eq hq, hkey, Answer.ofKey, if_neg (by simp),
      Answer.ofQuery_page_eq_run hresolved]

end Paginator

end Paging
