import Mathlib.Data.List.Forall2
import Paging.Proofs.StatementOrder
import Paging.Proofs.Transparency

/-! Row counts that several executors share. The key of a count names the table of the base
statement, not the statement; executors share counts rightly where the table determines the
statement. -/
namespace Paging.Sql

open Paginator

/-- A base statement, the database that it is run on, and what is made of its rows. -/
structure Source where
  base : Base
  dialect : Option String := none
  database : Database
  item : Row → Row := id

namespace Source

def executor (s : Source) : Executor :=
  Sql.executor s.base (nameOf s.base none) s.dialect s.database s.item

theorem steady_executor {s : Source} (h : s.database.Steady) : s.executor.Steady where
  count := by
    intro q q' hq
    obtain ⟨hwheres, hparams, -⟩ := Query.mk.inj hq
    exact count_congr h s.base hwheres hparams
  fetch := fun q q' fields hq => congrArg (Except.map _) (fetch_congr h s.base fields hq)

theorem countsCondition_executor {s : Source} (h : s.database.Steady) {cfg : Config}
    (hf : cfg.fieldWrapper = "") (hv : cfg.valueWrapper = "") : s.executor.CountsCondition cfg :=
  fun _ _ _ hwheres hparams => count_congr h s.base (hwheres hf hv) hparams

end Source

/-! ### Shared keys -/

def users : Base where
  table := "users"
  columns := ["id", "name"]
  body := [.text "SELECT users.id AS id, users.name AS name \nFROM users"]

def adults : Base where
  table := "users"
  columns := ["id"]
  body := [.text "SELECT users.id AS id \nFROM users \nWHERE users.age > ",
    .bind (.numbered "age") ⟨.int 18, false⟩]

def orders : Base where
  table := "orders"
  columns := ["id"]
  body := [.text "SELECT orders.id AS id \nFROM orders"]

def tally (b : Base) (n : Int) : Source where
  base := b
  database := { count := fun _ => .ok n, rows := fun _ => .ok [] }

def cuttingConfig : Config := ({ fieldWrapper := "%.13s" } : Config).resolve (some "sqlite")

def nameQuery (t : Text) : Query := ⟨["name", "=", "?"], [.text t], 10, 0, []⟩

/-- Two base statements on one table share the keys of counts, though they count different rows.
Under settings that cut columns two requests to one executor share a key, though their conditions
take the parameters at different places, and so do a request for a split pair and one for the
character. And under one label two tables share a page, with its total. -/
theorem count_keys_shared :
    (∃ q, Query.ofDescriptor {} (Descriptor.ofRequest {} .none) = .ok q ∧
      Cache.countKey (nameOf users none) q = Cache.countKey (nameOf adults none) q ∧
      (Statement.count users q).map (fun st => st.printed.sql) ≠
        (Statement.count adults q).map fun st => st.printed.sql) ∧
    (∃ q q', Query.ofDescriptor cuttingConfig (Descriptor.ofRequest cuttingConfig plainFirst) =
        .ok q ∧
      Query.ofDescriptor cuttingConfig (Descriptor.ofRequest cuttingConfig patternFirst) = .ok q' ∧
      Cache.countKey (nameOf users none) q = Cache.countKey (nameOf users none) q' ∧
      (Statement.count users q).map (fun st => st.printed.sql) ≠
        (Statement.count users q').map fun st => st.printed.sql) ∧
    (∃ q q', Query.ofDescriptor {} (Descriptor.ofRequest {} (Cache.astralRequest Text.astral)) =
        .ok q ∧
      Query.ofDescriptor {} (Descriptor.ofRequest {} (Cache.astralRequest Text.splitPair)) =
        .ok q' ∧
      Cache.countKey (nameOf users none) q = Cache.countKey (nameOf users none) q' ∧
      (Statement.count users q).map (fun st => st.printed.params) ≠
        (Statement.count users q').map fun st => st.printed.params) ∧
    ∃ i j : Inquiry, i.executor = (tally users 3).executor ∧
      j.executor = (tally orders 5).executor ∧ i.label ≠ "" ∧ i.pageKey {} = j.pageKey {} := by
  refine ⟨⟨{}, rfl, rfl, by decide +kernel⟩, ?_,
    ⟨nameQuery Text.astral, nameQuery Text.splitPair, rfl, rfl, ?_, fun h => ?_⟩,
    { executor := (tally users 3).executor, label := "rows:" },
    { executor := (tally orders 5).executor, label := "rows:" }, rfl, rfl, by decide, rfl⟩
  · refine
      ⟨⟨["(", "\"zzzzzzzzzzzz LIKE ? ESCAPE '\\' OR \"", "=", "?", "OR", "\"\"\"\"", "LIKE", "?",
          "ESCAPE '\\'", ")"], [.text "%x%", .text "%y%"], 10, 0, []⟩,
        ⟨["(", "\"zzzzzzzzzzzz", "LIKE", "?", "ESCAPE '\\'", "OR", "\" = ? OR \"\"\"\"", "LIKE",
          "?", "ESCAPE '\\'", ")"], [.text "%x%", .text "%y%"], 10, 0, []⟩,
        rfl, rfl, ?_, by decide +kernel⟩
    rfl
  · have hinput : Cache.digestInput (Cache.countPayload (nameQuery Text.astral)) =
        Cache.digestInput (Cache.countPayload (nameQuery Text.splitPair)) :=
      Cache.digestInput_congr rfl (by simp only [nameQuery, Json.Form.listChars, Json.Form.chars,
        Json.stringText_splitPair])
    simp only [Cache.countKey, Cache.digest_eq, hinput]
  · have hprinted (t : Text) :
        (Statement.count users (nameQuery t)).map (fun st => st.printed.params) =
          .ok [("p0", .text t)] := rfl
    rw [hprinted, hprinted] at h
    have htext := Value.text.inj (Prod.mk.inj (List.cons.inj (Except.ok.inj h)).1).2
    exact absurd htext (by decide)

/-! ### Counts of one's own -/

theorem countKey_left_inj {table table' : String} {q : Query}
    (h : Cache.countKey table q = Cache.countKey table' q) : table = table' := by
  have hlist := congrArg String.toList h
  simp only [Cache.countKey, String.toList_append, List.append_assoc] at hlist
  exact String.toList_inj.mp (List.append_cancel_right (List.append_cancel_left hlist))

/-- Where the total of a page comes from. -/
theorem total_uncached {cfg : Config} {i : Inquiry} {q : Query} {n : Int} {items : List Row}
    (hq : i.query cfg = .ok q) (hn : i.executor.count q = .ok n)
    (hitems : i.executor.fetch q (i.fields cfg) = .ok items) :
    ∃ page, i.uncached cfg = .ok page ∧ page.total = n := by
  have hrun : i.executor.run q (i.fields cfg) = .ok (items, n) := by
    rw [Executor.run, hn, hitems]
    rfl
  rw [Inquiry.uncached_eq hq, hrun]
  exact ⟨_, rfl, rfl⟩

/-- Among some sources the table determines the base statement and the database. -/
def Determined (sources : List Source) : Prop :=
  ∀ s ∈ sources, ∀ t ∈ sources, s.base.table = t.base.table →
    s.base = t.base ∧ s.dialect = t.dialect ∧ s.database = t.database

/-- Inquiries of such sources that share a key of the cache have one answer under it. -/
theorem Determined.coherent {config : Config} {sources : List Source} (hd : Determined sources)
    (hf : config.fieldWrapper = "") (hv : config.valueWrapper = "")
    (hsteady : ∀ s ∈ sources, s.database.Steady) {is : List Inquiry}
    (his : ∀ i ∈ is, i.request.IsJson ∧ ∃ s ∈ sources, i.executor = s.executor)
    (hjoined : ∀ i ∈ is, i.Joined config)
    (hlabels : ∀ i ∈ is, i.label ≠ "" → i.executor.Storable ∧
      ∀ j ∈ is, i.label = j.label → i.executor = j.executor)
    (hdigests : ∀ x ∈ is.flatMap (Inquiry.digestInputs config),
      ∀ y ∈ is.flatMap (Inquiry.digestInputs config), Digest.md5 x = Digest.md5 y → x = y) :
    Coherent config is where
  json := fun i hi => (his i hi).1
  joined := hjoined
  storable := fun i hi hlabel => Inquiry.storable_uncached (hlabels i hi hlabel).1 config
  digests := hdigests
  pages := by
    intro i hi j hj hlabel hne hdescriptor hfields
    obtain ⟨s, hs, hex⟩ := (his i hi).2
    have hi' : i.executor.Steady := hex ▸ Source.steady_executor (hsteady s hs)
    exact Inquiry.uncached_congr hi' ((hlabels i hi hne).2 j hj hlabel) hdescriptor hfields
  counts := by
    intro _ i hi j hj hname q q' hq hq' htext hparams
    obtain ⟨s, hs, hexs⟩ := (his i hi).2
    obtain ⟨t, ht, hext⟩ := (his j hj).2
    rw [hexs, hext] at hname ⊢
    obtain ⟨hbase, hdialect, hdatabase⟩ := hd s hs t ht hname
    -- One dialect has one configuration, under which the text of a condition tells its tokens.
    have hsame : i.config config = j.config config := by
      rw [Inquiry.config, Inquiry.config, hexs, hext]
      exact congrArg config.resolve hdialect
    rw [Inquiry.query, Inquiry.descriptor, ← hsame] at hq'
    have hwheres := Query.wheres_of_whereText
      (config.untemplated_resolve i.executor.dialect hf hv) hq hq' htext
    have hcount : t.executor.count = s.executor.count := by
      rw [Source.executor, Source.executor, hbase, hdatabase]
      rfl
    rw [hcount]
    exact Source.countsCondition_executor (hsteady s hs) hf hv q q' htext (fun _ _ => hwheres)
      hparams

/-- Where the table determines the base statement and the database, executors share counts rightly:
those that share the key of a count run the same statement for it, and in a run the total of each
page is the count that its own executor gives. The column and value templates are not configured, a
label for pages belongs to one executor, whose rows are JSON values, no split pair is asked for, and
the digest tells apart what it is taken of. -/
theorem shared_counts (config : Config) (hf : config.fieldWrapper = "")
    (hv : config.valueWrapper = "") (sources : List Source) (hd : Determined sources)
    (hsteady : ∀ s ∈ sources, s.database.Steady) :
    (∀ s ∈ sources, ∀ t ∈ sources, ∀ q,
      Cache.countKey s.executor.name q = Cache.countKey t.executor.name q →
        Statement.count s.base q = Statement.count t.base q) ∧
    ∀ (a : Cache.Adapter) (steps : List Step), a.store.entries = [] →
      (∀ i ∈ inquiries steps, i.request.IsJson ∧ ∃ s ∈ sources, i.executor = s.executor) →
      (∀ i ∈ inquiries steps, i.Joined config) →
      (∀ i ∈ inquiries steps, i.label ≠ "" → i.executor.Storable ∧
        ∀ j ∈ inquiries steps, i.label = j.label → i.executor = j.executor) →
      (∀ x ∈ (inquiries steps).flatMap (Inquiry.digestInputs config),
        ∀ y ∈ (inquiries steps).flatMap (Inquiry.digestInputs config),
          Digest.md5 x = Digest.md5 y → x = y) →
      List.Forall₂ (fun i answer => ∀ q n items, i.query config = .ok q →
          i.executor.count q = .ok n → i.executor.fetch q (i.fields config) = .ok items →
            ∃ page, answer = .ok page ∧ page.total = n)
        (inquiries steps) ((ofConfig config (some a)).answers steps) := by
  refine ⟨fun s hs t ht q hkey => ?_, fun a steps ha hsteps hjoined hlabels hdigests => ?_⟩
  · rw [(hd s hs t ht (countKey_left_inj hkey)).1]
  · have hc := hd.coherent hf hv hsteady hsteps hjoined hlabels hdigests
    rw [(Sound.ofConfig ha).answers_eq hc steps fun i hi => hi, List.forall₂_map_right_iff,
      List.forall₂_same]
    exact fun i _ q n items hq hn hitems => total_uncached hq hn hitems

theorem tally_storable (b : Base) (n : Int) : (tally b n).executor.Storable := by
  intro q fields items h
  have hrun : (run (Statement.fetch b q fields) (tally b n).database.rows).map (List.map id) =
      .ok items := h
  unfold run Printed.run at hrun
  split at hrun
  · cases hrun
  · split at hrun
    · cases hrun
    · cases hrun
      trivial

theorem tally_steady (b : Base) (n : Int) : (tally b n).database.Steady :=
  ⟨fun _ _ _ => rfl, fun _ _ _ => rfl⟩

theorem Printed.run_eq_ok {α : Type} {p : Printed} {act : Printed → Except String α} {a : α}
    (hp : p.clash = none) (hact : act p = .ok a) : p.run act = .ok a := by
  rw [Printed.run, hp]
  simp only [hact]
  rfl

theorem tally_runs {b : Base} (hb : b ∈ [users, orders]) (n : Int) :
    (tally b n).executor.count {} = .ok n ∧ (tally b n).executor.fetch {} [] = .ok [] := by
  have hcount : ∀ b ∈ [users, orders],
      ({ projection := .count, base := b } : Statement).printed.clash = none := by decide +kernel
  let fetched (b : Base) : Statement :=
    { projection := .columns b.columns, base := b, window := some (10, 0) }
  have hfetch : ∀ b ∈ [users, orders], (fetched b).printed.clash = none := by decide +kernel
  refine ⟨Printed.run_eq_ok (hcount b hb) rfl, ?_⟩
  have hrows : (fetched b).printed.run (tally b n).database.rows = .ok [] :=
    Printed.run_eq_ok (hfetch b hb) rfl
  exact congrArg (Except.map (List.map id)) hrows

def tallies : List Source := [tally users 3, tally orders 5]

theorem mem_tallies {s : Source} : s ∈ tallies ↔ s = tally users 3 ∨ s = tally orders 5 := by
  simp [tallies]

theorem determined_tallies : Determined tallies := by
  intro s hs t ht htable
  rcases mem_tallies.mp hs with rfl | rfl <;> rcases mem_tallies.mp ht with rfl | rfl
  · exact ⟨rfl, rfl, rfl⟩
  · exact absurd htable (by decide)
  · exact absurd htable (by decide)
  · exact ⟨rfl, rfl, rfl⟩

def tallyInquiry (b : Base) (n : Int) : Inquiry :=
  { rowInquiry with executor := (tally b n).executor, label := b.table ++ ":" }

theorem tallyInquiry_joined (b : Base) (n : Int) : (tallyInquiry b n).Joined countingConfig where
  page := fun _ => Value.isJoined_of_isWhole rfl
  count := by
    rintro - _ ⟨⟩
    exact Value.isJoined_of_isWhole rfl

/-- Two tables take turns. -/
theorem shared_counts_in_turns :
    let steps := [.respond (tallyInquiry users 3), .respond (tallyInquiry orders 5), .clearAll true,
      .respond (tallyInquiry users 3)]
    ((ofConfig countingConfig (some {})).answers steps).map (Except.map Page.total) =
      [.ok 3, .ok 5, .ok 3] := by
  intro steps
  have hinquiry : ∀ i ∈ inquiries steps,
      i = tallyInquiry users 3 ∨ i = tallyInquiry orders 5 := by simp [steps, inquiries]
  have hcounts := shared_counts countingConfig rfl rfl tallies determined_tallies
    (fun s hs => by rcases mem_tallies.mp hs with rfl | rfl <;> exact tally_steady _ _)
  have hanswers := hcounts.2 {} steps rfl
    (fun i hi => by
      rcases hinquiry i hi with rfl | rfl
      · exact ⟨rowInquiry_isJson, tally users 3, mem_tallies.mpr (Or.inl rfl), rfl⟩
      · exact ⟨rowInquiry_isJson, tally orders 5, mem_tallies.mpr (Or.inr rfl), rfl⟩)
    (fun i hi => by rcases hinquiry i hi with rfl | rfl <;> exact tallyInquiry_joined _ _)
    (fun i hi _ => by
      rcases hinquiry i hi with rfl | rfl
      · refine ⟨tally_storable _ _, fun j hj hlabel => ?_⟩
        rcases hinquiry j hj with rfl | rfl
        · rfl
        · exact absurd hlabel (by decide)
      · refine ⟨tally_storable _ _, fun j hj hlabel => ?_⟩
        rcases hinquiry j hj with rfl | rfl
        · exact absurd hlabel (by decide)
        · rfl)
    (eq_of_md5_row fun i hi => by rcases hinquiry i hi with rfl | rfl <;> rfl)
  have htotal {b : Base} (hb : b ∈ [users, orders]) (n : Int) (answer : Except RequestError Page)
      (h : ∀ q m items, (tallyInquiry b n).query countingConfig = .ok q →
        (tally b n).executor.count q = .ok m →
          (tally b n).executor.fetch q ((tallyInquiry b n).fields countingConfig) = .ok items →
            ∃ page, answer = .ok page ∧ page.total = m) : answer.map Page.total = .ok n := by
    obtain ⟨hcount, hfetch⟩ := tally_runs hb n
    obtain ⟨page, rfl, hpage⟩ := h {} n [] rfl hcount hfetch
    exact congrArg Except.ok hpage
  generalize (ofConfig countingConfig (some {})).answers steps = answers at hanswers ⊢
  have hthree : List.Forall₂ _
      [tallyInquiry users 3, tallyInquiry orders 5, tallyInquiry users 3] answers := hanswers
  obtain _ | ⟨hfirst, _ | ⟨hsecond, _ | ⟨hthird, _ | _⟩⟩⟩ := hthree
  rw [List.map_cons, List.map_cons, List.map_cons, List.map_nil,
    htotal (by simp) _ _ hfirst, htotal (by simp) _ _ hsecond, htotal (by simp) _ _ hthird]

end Paging.Sql
