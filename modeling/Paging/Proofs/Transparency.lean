import Paging.Proofs.CountKey
import Paging.Proofs.Entries
import Paging.Proofs.PageKey
import Paging.Proofs.Run
import Paging.Proofs.Stored
import Paging.Proofs.WholeNumber

/-! A cache that changes no answer. Whatever a paginator keeps is what the executor would give
now, so an answer from the cache is the answer without it. This holds of every step that keeps the
invariant, and so of every run, however often the connection to the store fails. -/
namespace Paging

open Value

namespace Cache

/-- No page is kept under the key of a count. -/
theorem pageKey_ne_countKey {d : Descriptor} {selected : List Text} {label table : String}
    {q : Query} (hlabel : label ≠ "")
    (hdigest : Digest.md5 (digestInput (pagePayload d selected)) =
        Digest.md5 (digestInput (countPayload q)) →
      digestInput (pagePayload d selected) = digestInput (countPayload q)) :
    pageKey label d selected ≠ countKey table q := by
  intro hkey
  have hempty : label.isEmpty = false := by simpa using hlabel
  simp only [pageKey, countKey, hempty, Bool.false_eq_true, if_false, digest_eq] at hkey
  have hinput := hdigest (append_md5_inj hkey).2
  have htext := Text.ofList.inj (Text.Utf8.encode_injective hinput)
  -- The one text opens an object, the other a list.
  exact absurd (List.cons.inj htext).1 (by decide)

end Cache

namespace Paginator

/-! ### The invariant -/

/-- The bytes that digests are taken of for an inquiry. -/
def Inquiry.digestInputs (cfg : Config) (i : Inquiry) : List (List UInt8) :=
  (if i.label.isEmpty then []
    else [Cache.digestInput (Cache.pagePayload (i.descriptor cfg) (i.fields cfg))]) ++
  match i.query cfg with
  | .ok q => if (i.config cfg).countCache then [Cache.digestInput (Cache.countPayload q)] else []
  | .error _ => []

/-- No split pair stands in what the keys of an inquiry are computed from. -/
structure Inquiry.Joined (cfg : Config) (i : Inquiry) : Prop where
  page : i.label ≠ "" → (Cache.pagePayload (i.descriptor cfg) (i.fields cfg)).IsJoined
  count : (i.config cfg).countCache = true → ∀ q, i.query cfg = .ok q →
    (Cache.countPayload q).IsJoined

/-- Some inquiries agree with each other: those whose answers share a key have one answer, and the
digest tells different keys apart. -/
structure Coherent (cfg : Config) (is : List Inquiry) : Prop where
  json : ∀ i ∈ is, i.request.IsJson
  joined : ∀ i ∈ is, i.Joined cfg
  storable : ∀ i ∈ is, i.label ≠ "" → ∀ page, i.uncached cfg = .ok page → page.IsStorable
  digests : ∀ x ∈ is.flatMap (Inquiry.digestInputs cfg),
    ∀ y ∈ is.flatMap (Inquiry.digestInputs cfg), Digest.md5 x = Digest.md5 y → x = y
  pages : ∀ i ∈ is, ∀ j ∈ is, i.label = j.label → i.label ≠ "" →
    (i.descriptor cfg).ordered = (j.descriptor cfg).ordered → i.fields cfg = j.fields cfg →
      i.uncached cfg = j.uncached cfg
  counts : cfg.countCache = true → ∀ i ∈ is, ∀ j ∈ is, i.executor.name = j.executor.name →
    ∀ q q', i.query cfg = .ok q → j.query cfg = .ok q' → q.whereText = q'.whereText →
      q.params.map ordered = q'.params.map ordered → i.executor.count q = j.executor.count q'

/-- What may be kept: the answer to an inquiry under its key, and the count for it under the key of
the count. -/
inductive Kept (cfg : Config) (is : List Inquiry) : String → Text → Prop
  | page {i : Inquiry} {page : Page} (hi : i ∈ is) (hlabel : i.label ≠ "")
      (hpage : i.uncached cfg = .ok page) : Kept cfg is (i.pageKey cfg) page.toJson
  | count {i : Inquiry} {q : Query} {n : Int} (hi : i ∈ is) (hq : i.query cfg = .ok q)
      (hcache : (i.config cfg).countCache = true) (hn : i.executor.count q = .ok n) :
      Kept cfg is (Cache.countKey i.executor.name q) (toString n)

section

variable {cfg : Config} {is : List Inquiry} {i j : Inquiry} {q : Query} {g : Cache.Gateway}

variable (cfg) in
theorem mem_pageInput (hi : i ∈ is) (hlabel : i.label ≠ "") :
    Cache.digestInput (Cache.pagePayload (i.descriptor cfg) (i.fields cfg)) ∈
      is.flatMap (Inquiry.digestInputs cfg) := by
  refine List.mem_flatMap.mpr ⟨i, hi, List.mem_append_left _ ?_⟩
  simp [hlabel]

theorem mem_countInput (hi : i ∈ is) (hq : i.query cfg = .ok q)
    (hcache : (i.config cfg).countCache = true) :
    Cache.digestInput (Cache.countPayload q) ∈ is.flatMap (Inquiry.digestInputs cfg) := by
  refine List.mem_flatMap.mpr ⟨i, hi, List.mem_append_right _ ?_⟩
  simp [hq, hcache]

theorem Kept.page_eq (hc : Coherent cfg is) (hi : i ∈ is) (hlabel : i.label ≠ "")
    {key : String} {text : Text} (h : Kept cfg is key text) (hkey : key = i.pageKey cfg) :
    ∃ page, text = page.toJson ∧ i.uncached cfg = .ok page := by
  have hinput := mem_pageInput cfg hi hlabel
  cases h with
  | @page j page hj hlabel' hpage =>
    have hsame := hc.digests _ (mem_pageInput cfg hj hlabel') _ hinput
    obtain ⟨hl, hd, hf⟩ := Cache.pageKey_inj (Descriptor.isJson_filter _ (hc.json j hj))
      (Descriptor.isJson_filter _ (hc.json i hi)) hlabel' hlabel ((hc.joined j hj).page hlabel')
      ((hc.joined i hi).page hlabel) hsame hkey
    exact ⟨page, rfl, hc.pages j hj i hi hl hlabel' hd hf ▸ hpage⟩
  | @count j q n hj hq hcache hn =>
    have hsame := hc.digests _ hinput _ (mem_countInput hj hq hcache)
    exact absurd hkey.symm (Cache.pageKey_ne_countKey hlabel hsame)

theorem Kept.count_eq (hc : Coherent cfg is) (hi : i ∈ is) (hq : i.query cfg = .ok q)
    (hcache : (i.config cfg).countCache = true) {key : String} {text : Text}
    (h : Kept cfg is key text) (hkey : key = Cache.countKey i.executor.name q) :
    ∃ n : Int, text = toString n ∧ i.executor.count q = .ok n := by
  have hinput := mem_countInput hi hq hcache
  cases h with
  | @page j page hj hlabel hpage =>
    have hsame := hc.digests _ (mem_pageInput cfg hj hlabel) _ hinput
    exact absurd hkey (Cache.pageKey_ne_countKey hlabel hsame)
  | @count j q' n hj hq' hcache' hn =>
    have hsame := hc.digests _ (mem_countInput hj hq' hcache') _ hinput
    have hjson {i : Inquiry} (hi : i ∈ is) {q : Query} (hq : i.query cfg = .ok q) :
        IsJsonList q.params :=
      Query.isJson_params _ (Descriptor.isJson_filter _ (hc.json i hi)) q hq
    obtain ⟨hname, htext, hparams⟩ := Cache.countKey_inj (hjson hj hq') (hjson hi hq)
      ((hc.joined j hj).count hcache' q' hq') ((hc.joined i hi).count hcache q hq) hsame hkey
    exact ⟨n, rfl, hc.counts hcache j hj i hi hname q' q hq' hq htext hparams ▸ hn⟩

/-! ### One inquiry -/

theorem Kept.total (hc : Coherent cfg is) (hi : i ∈ is) (hq : i.query cfg = .ok q)
    (hg : g.All (Kept cfg is)) :
    (Outcome.total (i.config cfg) i.executor q g).result = i.executor.count q ∧
      (Outcome.total (i.config cfg) i.executor q g).cache.All (Kept cfg is) := by
  unfold Outcome.total
  split
  · rename_i hcache
    have hon := (Bool.and_eq_true_iff.mp hcache).1
    obtain ⟨hread, hcount⟩ := hg.getCount (Cache.countKey i.executor.name q)
    dsimp only
    split
    · rename_i n g' hget
      rw [hget] at hread hcount
      obtain ⟨text, htext, hn⟩ := hcount n rfl
      obtain ⟨m, rfl, hm⟩ := htext.count_eq hc hi hq hon rfl
      have hnm : n = m := by
        rw [Decimal.readInt?_toString] at hn
        split at hn
        · exact (Option.some.inj hn).symm
        · cases hn
      exact ⟨hnm ▸ hm.symm, hread⟩
    · rename_i g' hget
      rw [hget] at hread
      split
      · rename_i n hn
        exact ⟨hn.symm, hread.write fun _ => .count hi hq hon hn⟩
      · rename_i e he
        exact ⟨he.symm, hread⟩
  · exact ⟨rfl, hg⟩

theorem Inquiry.label_ne (h : i.pageKey cfg ≠ "") : i.label ≠ "" := by
  intro hlabel
  rw [Inquiry.pageKey, hlabel, Cache.pageKey_empty] at h
  exact h rfl

theorem Kept.ofQuery (hc : Coherent cfg is) (hi : i ∈ is) (hq : i.query cfg = .ok q)
    (hg : g.All (Kept cfg is)) :
    let a := Answer.ofQuery (i.config cfg) i.executor (i.descriptor cfg) q (i.fields cfg)
      (i.pageKey cfg) g
    a.page = i.uncached cfg ∧ a.cache.All (Kept cfg is) := by
  intro a
  obtain ⟨htotal, hcache⟩ := Kept.total hc hi hq hg
  have hpage : a.page = i.uncached cfg := by
    rw [Inquiry.uncached_eq hq, Answer.ofQuery_page,
      Outcome.rows_result (i.fields cfg) htotal]
  exact ⟨hpage, Answer.all_ofQuery (Outcome.all_rows hcache) fun hkey page hnew =>
    .page hi (Inquiry.label_ne hkey) (hpage.symm.trans hnew)⟩

theorem Kept.ofKey (hc : Coherent cfg is) (hi : i ∈ is) (hq : i.query cfg = .ok q)
    (hg : g.All (Kept cfg is)) :
    let a := Answer.ofKey (i.config cfg) i.executor (i.descriptor cfg) q (i.fields cfg)
      (i.pageKey cfg) g
    a.page = i.uncached cfg ∧ a.cache.All (Kept cfg is) := by
  unfold Answer.ofKey
  dsimp only
  split
  · rename_i hkept
    have hkey : i.pageKey cfg ≠ "" := by
      simpa using (Bool.and_eq_true_iff.mp hkept).2
    have hlabel := Inquiry.label_ne hkey
    obtain ⟨hread, hpage⟩ := hg.getPage (i.pageKey cfg)
    split
    · rename_i page g' hget
      rw [hget] at hread hpage
      obtain ⟨text, htext, hjson⟩ := hpage page rfl
      obtain ⟨kept, rfl, hkept⟩ := htext.page_eq hc hi hlabel rfl
      obtain rfl := Page.ofJson_toJson_gives (hc.storable i hi hlabel kept hkept) page hjson
      exact ⟨hkept.symm, hread⟩
    · rename_i g' hget
      rw [hget] at hread
      exact Kept.ofQuery hc hi hq hread
  · exact Kept.ofQuery hc hi hq hg

/-- An answer is the answer without a cache, and the invariant holds after it. -/
theorem Kept.ofRequest (hc : Coherent cfg is) (hi : i ∈ is) (hg : g.All (Kept cfg is)) :
    let a := Answer.ofRequest (i.config cfg) i.executor i.request i.label i.allowed g
    a.page = i.uncached cfg ∧ a.cache.All (Kept cfg is) := by
  intro a
  set noted := g.note (Descriptor.notices (i.config cfg) i.request ++
    Query.notices (i.config cfg) (i.descriptor cfg))
  have hnoted : noted.All (Kept cfg is) := hg.note _
  cases hq : i.query cfg with
  | error e =>
    have hquery : Query.ofDescriptor (i.config cfg)
        (Descriptor.ofRequest (i.config cfg) i.request) = .error e := hq
    have ha : a = ⟨.error (.template e), [], noted⟩ := by
      simp only [a, Answer.ofRequest, hquery]
      rfl
    rw [ha, Inquiry.uncached, hq]
    exact ⟨rfl, hnoted⟩
  | ok q =>
    have hquery : Query.ofDescriptor (i.config cfg)
        (Descriptor.ofRequest (i.config cfg) i.request) = .ok q := hq
    have ha : a = Answer.ofKey (i.config cfg) i.executor (i.descriptor cfg) q (i.fields cfg)
        (i.pageKey cfg) noted := by
      simp only [a, Answer.ofRequest, hquery]
      rfl
    rw [ha]
    exact Kept.ofKey hc hi hq hnoted

/-! ### Runs -/

/-- The paginator has these settings, and what it keeps is what the executors give. -/
structure Sound (cfg : Config) (is : List Inquiry) (p : Paginator) : Prop where
  config : p.config = cfg
  kept : p.cache.All (Kept cfg is)

theorem Sound.ofConfig {a : Cache.Adapter} (ha : a.store.entries = []) :
    Sound cfg is (ofConfig cfg (some a)) := by
  refine ⟨rfl, ?_⟩
  rintro _ ⟨⟩ x hx
  rw [ha] at hx
  cases hx

variable {p : Paginator}

theorem Sound.respond (h : Sound cfg is p) (hc : Coherent cfg is) (hi : i ∈ is) :
    (p.respond i).1.page = i.uncached cfg ∧ Sound cfg is (p.respond i).2 := by
  obtain ⟨hpage, hkept⟩ := Kept.ofRequest hc hi h.kept
  obtain ⟨rfl, -⟩ := h
  exact ⟨hpage, rfl, hkept⟩

theorem Sound.perform (h : Sound cfg is p) (cs : List Clear) : Sound cfg is (p.perform cs) := by
  refine ⟨h.config, ?_⟩
  have hfold : ∀ g : Cache.Gateway, g.All (Kept cfg is) →
      (cs.foldl Clear.perform g).All (Kept cfg is) := by
    induction cs with
    | nil => exact fun g hg => hg
    | cons c cs ih => exact fun g hg => ih (c.perform g) (hg.perform c)
  exact hfold p.cache h.kept

theorem Sound.forget (h : Sound cfg is p) (cs : List Clear) (now : Bool) :
    Sound cfg is (p.forget cs now) := by
  cases now with
  | true => exact h.perform cs
  | false => exact ⟨h.config, h.kept⟩

theorem Sound.advance (h : Sound cfg is p) (seconds : Int) : Sound cfg is (p.advance seconds) := by
  refine ⟨h.config, fun a ha => ?_⟩
  obtain ⟨b, hb, rfl⟩ := Option.map_eq_some_iff.mp ha
  exact (h.kept b hb).advance seconds

theorem Sound.step (h : Sound cfg is p) (hc : Coherent cfg is) (s : Step)
    (hs : ∀ i ∈ inquiries [s], i ∈ is) : Sound cfg is (p.step s) := by
  cases s with
  | respond i => exact (h.respond hc (hs i List.mem_cons_self)).2
  | advance seconds => exact h.advance seconds
  | clear labels now => exact h.forget _ now
  | clearAll now => exact h.forget _ now
  | drain =>
    have hperform := h.perform p.scheduled
    exact ⟨hperform.config, hperform.kept⟩

/-- The answers of a run are those without a cache. -/
theorem Sound.answers_eq (hc : Coherent cfg is) (steps : List Step)
    (hsteps : ∀ i ∈ inquiries steps, i ∈ is) (h : Sound cfg is p) :
    p.answers steps = (inquiries steps).map (Inquiry.uncached cfg) := by
  induction steps generalizing p with
  | nil => rfl
  | cons s steps ih =>
    cases s with
    | respond i =>
      have hi : i ∈ is := hsteps i List.mem_cons_self
      obtain ⟨hpage, hnext⟩ := h.respond hc hi
      rw [answers, inquiries, List.map_cons, hpage]
      exact congrArg _ (ih (fun j hj => hsteps j (List.mem_cons_of_mem i hj)) hnext)
    | _ =>
      exact ih hsteps (h.step hc _ fun i hi => by cases hi)

end

end Paginator

/-! ### One executor -/

namespace Executor

/-- Every row that is fetched can be stored. -/
def Storable (ex : Executor) : Prop :=
  ∀ q fields items, ex.fetch q fields = .ok items → IsStorableList (items.map Row.value)

theorem Storable.pageOf {ex : Executor} (h : ex.Storable) (cfg : Config) (d : Descriptor)
    (q : Query) (fields : List Text) :
    Gives (Answer.pageOf cfg d q (ex.run q fields)) Page.IsStorable := by
  have hrows : Gives (ex.run q fields) fun r => IsStorableList (r.1.map Row.value) :=
    .bind (.trivially _) fun n _ => .bind (h q fields) fun items hitems => .ok hitems
  cases hrun : ex.run q fields with
  | error e =>
    cases e with
    | refused message statement =>
      refine .ok ?_
      unfold Page.buildError
      dsimp only
      split <;> exact trivial
    | missingParameter | other _ => exact .error _
  | ok r => exact .ok (hrows r hrun)

/-- An executor that stays the same: it does alike with queries that are the same up to the order
of fields in their parameters, be it that it refuses them. -/
structure Steady (ex : Executor) : Prop where
  count : ∀ q q', q.ordered = q'.ordered → ex.count q = ex.count q'
  fetch : ∀ q q' fields, q.ordered = q'.ordered → ex.fetch q fields = ex.fetch q' fields

/-- The count of a query is that of its condition, whatever the window and the sort keys. Where a
template is configured the condition is known by its text, else by its tokens. -/
def CountsCondition (ex : Executor) (cfg : Config) : Prop :=
  ∀ q q', q.whereText = q'.whereText →
    (cfg.fieldWrapper = "" → cfg.valueWrapper = "" → q.wheres = q'.wheres) →
      q.params.map ordered = q'.params.map ordered → ex.count q = ex.count q'

theorem Steady.run_congr {ex : Executor} (h : ex.Steady) {q q' : Query}
    (hq : q.ordered = q'.ordered) (fields : List Text) : ex.run q fields = ex.run q' fields := by
  rw [run, run, h.count q q' hq, h.fetch q q' fields hq]

end Executor

theorem Answer.pageOf_congr {cfg : Config} {d d' : Descriptor} {q q' : Query}
    (hpage : d.page = d'.page) (hsize : d.size = d'.size) (hlimit : q.limit = q'.limit)
    (hoffset : q.offset = q'.offset) : pageOf cfg d q = pageOf cfg d' q' := by
  have hbuild (items : List Row) (total : Int) :
      Page.build items total q d = Page.build items total q' d' := by
    simp only [Page.build, hpage, hsize, hlimit, hoffset]
  funext r
  unfold pageOf
  split
  · rw [hbuild]
  · rw [Page.buildError, Page.buildError, hbuild]
  · rfl

namespace Paginator

theorem Inquiry.storable_uncached {i : Inquiry} (h : i.executor.Storable) (cfg : Config) :
    Gives (i.uncached cfg) Page.IsStorable := by
  unfold Inquiry.uncached
  split
  · exact .error _
  · exact h.pageOf _ _ _ _

/-- Under one executor the answer depends on the request up to the order of fields. -/
theorem Inquiry.uncached_congr {cfg : Config} {i j : Inquiry} (h : i.executor.Steady)
    (hex : i.executor = j.executor)
    (hd : (i.descriptor cfg).ordered = (j.descriptor cfg).ordered)
    (hf : i.fields cfg = j.fields cfg) : i.uncached cfg = j.uncached cfg := by
  have hcfg : i.config cfg = j.config cfg := by rw [Inquiry.config, Inquiry.config, hex]
  obtain ⟨hpage, hsize, -⟩ := Descriptor.mk.inj hd
  have hquery : (i.query cfg).map Query.ordered = (j.query cfg).map Query.ordered := by
    rw [Inquiry.query, Inquiry.query, hcfg]
    exact Query.ofDescriptor_congr _ hd
  rw [Inquiry.uncached, Inquiry.uncached]
  cases hi : i.query cfg with
  | error e =>
    cases hj : j.query cfg with
    | error e' =>
      rw [hi, hj] at hquery
      rw [Except.error.inj hquery]
    | ok q' =>
      rw [hi, hj] at hquery
      cases hquery
  | ok q =>
    cases hj : j.query cfg with
    | error e' =>
      rw [hi, hj] at hquery
      cases hquery
    | ok q' =>
      rw [hi, hj] at hquery
      have hq : q.ordered = q'.ordered := Except.ok.inj hquery
      obtain ⟨-, -, hlimit, hoffset, -⟩ := Query.mk.inj hq
      show Answer.pageOf _ _ _ _ = Answer.pageOf _ _ _ _
      rw [h.run_congr hq, hcfg, hex, hf, Answer.pageOf_congr hpage hsize hlimit hoffset]

def countingConfig : Config := { cacheTtl := some 60, countCache := true }

def row : Row := ⟨.object [("id", .int 1), ("name", .text "Ada")], by decide⟩

def rowInquiry : Inquiry where
  executor := .ofRows "users" none [row]
  request := .mapping [("page", .int 1)]
  label := "users:"

theorem ordered_pagePayload_row :
    (Cache.pagePayload (rowInquiry.descriptor countingConfig)
        (rowInquiry.fields countingConfig)).ordered =
      .object [("fields", .list []),
        ("filters", .object [("children", .list []), ("type", .text "group")]), ("page", .int 1),
        ("selected", .list []), ("size", .int 10), ("sorts", .list [])] := by
  have hgroup : (Value.object [("type", .text "group"), ("children", .list [])]).ordered =
      .object [("children", .list []), ("type", .text "group")] := by
    rw [ordered_perm (List.Perm.swap _ _ _) (by decide)]
    exact congrArg _ (List.mergeSort_of_pairwise (by decide))
  rw [← hgroup]
  let fields : Fields := [("page", .int 1), ("size", .int 10), ("sorts", .list []),
    ("fields", .list []), ("filters", .object [("type", .text "group"), ("children", .list [])]),
    ("selected", .list [])]
  have hnames : (["page", "size", "sorts", "fields", "filters", "selected"] : List Text).Perm
      ["fields", "filters", "page", "selected", "size", "sorts"] := by decide
  have hperm := hnames.map fun name => (name, (fields.lookup name).getD .null)
  refine (ordered_perm hperm (by decide)).trans ?_
  exact congrArg _ (List.mergeSort_of_pairwise (by decide))

theorem row_digests_ne :
    Digest.md5 (Cache.digestInput (Cache.pagePayload (rowInquiry.descriptor countingConfig)
        (rowInquiry.fields countingConfig))) ≠
      Digest.md5 (Cache.digestInput (Cache.countPayload {})) := by
  simp only [Cache.digestInput, Json.Form.render, Json.canonical_chars, ordered_pagePayload_row]
  decide +kernel

theorem eq_of_md5_row {is : List Inquiry}
    (h : ∀ i ∈ is, i.digestInputs countingConfig = rowInquiry.digestInputs countingConfig) :
    ∀ x ∈ is.flatMap (Inquiry.digestInputs countingConfig),
      ∀ y ∈ is.flatMap (Inquiry.digestInputs countingConfig),
        Digest.md5 x = Digest.md5 y → x = y := by
  have hinput : ∀ x ∈ is.flatMap (Inquiry.digestInputs countingConfig),
      x = Cache.digestInput (Cache.pagePayload (rowInquiry.descriptor countingConfig)
        (rowInquiry.fields countingConfig)) ∨ x = Cache.digestInput (Cache.countPayload {}) := by
    intro x hx
    obtain ⟨i, hi, hx⟩ := List.mem_flatMap.mp hx
    rw [h i hi] at hx
    rcases List.mem_cons.mp hx with rfl | hx
    · exact .inl rfl
    · exact .inr (List.mem_singleton.mp hx)
  intro x hx y hy hxy
  rcases hinput x hx with rfl | rfl <;> rcases hinput y hy with rfl | rfl
  · rfl
  · exact absurd hxy row_digests_ne
  · exact absurd hxy.symm row_digests_ne
  · rfl

theorem rowInquiry_isJson : rowInquiry.request.IsJson := by
  intro f hf
  obtain rfl := List.mem_singleton.mp hf
  trivial

def plainFirst : Request :=
  .mapping [("filters", .list [.list [.text "zzzzzzzzzzzz LIKE ? ESCAPE '\\' OR ", .text "=",
      .text "%x%"], .list [.text "\"", .text "like", .text "y"]])]

/-- Two pattern matches, the second on a column that is cut in the middle of a quote. -/
def patternFirst : Request :=
  .mapping [("filters", .list [.list [.text "zzzzzzzzzzzzz", .text "like", .text "x"],
    .list [.text " = ? OR \"\"", .text "like", .text "y"]])]

end Paginator

end Paging
