import Mathlib.Algebra.Order.Floor.Div
import Paging.Proofs.Direct

/-! Walking through the pages of a list. The pages of one size, from the first to the last, hold
every row once and in order, and each knows where it stands. -/
namespace Paging

/-! ### Arithmetic of pages -/

theorem lt_ceilDiv_iff {n s k : ℕ} (hs : 0 < s) : k < n ⌈/⌉ s ↔ k * s < n := by
  rw [← not_le, ceilDiv_le_iff_le_mul hs, not_le, Nat.mul_comm]

theorem Metrics.pageCount_eq_ceilDiv (n : ℕ) {s : ℕ} (hs : 0 < s) :
    pageCount n s = (n ⌈/⌉ s : ℕ) := by
  rw [pageCount, Nat.ceilDiv_eq_add_pred_div]
  by_cases hn : n = 0
  · have hzero : (n + s - 1) / s = 0 := Nat.div_eq_of_lt (by omega)
    rw [hzero, if_pos (by omega), Nat.cast_zero]
  · have hn' : ¬ (n : ℤ) < 1 := by omega
    have hs' : ¬ (s : ℤ) < 1 := by omega
    have hsum : (n : ℤ) + s - 1 = ((n + s - 1 : ℕ) : ℤ) := by omega
    rw [if_neg hn', if_neg hs', hsum, Int.natCast_ediv]

theorem flatMap_windows {α : Type} (rows : List α) (s count : ℕ) :
    ((List.range' 1 count).flatMap fun k => (rows.drop ((k - 1) * s)).take s) =
      rows.take (count * s) := by
  induction count with
  | zero => simp
  | succ count ih =>
    rw [List.range'_1_concat, List.flatMap_append, ih, Nat.succ_mul, List.take_add]
    simp

namespace Page

def ofRows (rows : List Row) (s k : ℕ) : Page where
  items := (rows.drop ((k - 1) * s)).take s
  page := k
  size := s
  maxPage := (rows.length ⌈/⌉ s : ℕ)
  totalPages := (rows.length ⌈/⌉ s : ℕ)
  total := rows.length
  last := k = rows.length ⌈/⌉ s
  first := k = 1
  visible := ((rows.drop ((k - 1) * s)).take s).length

variable {rows : List Row} {s k : ℕ}

theorem length_ofRows : (ofRows rows s k).items.length = min s (rows.length - (k - 1) * s) := by
  simp [ofRows]

theorem length_ofRows_of_lt (hs : 0 < s) (hk : 1 ≤ k) (h : k < rows.length ⌈/⌉ s) :
    (ofRows rows s k).items.length = s := by
  have hrows : k * s < rows.length := (lt_ceilDiv_iff hs).mp h
  have hsplit : k * s = (k - 1) * s + s := by
    rw [← Nat.succ_mul, Nat.succ_eq_add_one, Nat.sub_add_cancel hk]
  rw [length_ofRows]
  omega

theorem length_ofRows_pos (hs : 0 < s) (hk : 1 ≤ k) (h : k ≤ rows.length ⌈/⌉ s) :
    1 ≤ (ofRows rows s k).items.length := by
  have hrows : (k - 1) * s < rows.length := (lt_ceilDiv_iff hs).mp (by omega)
  rw [length_ofRows]
  omega

theorem items_ofRows_of_gt (hs : 0 < s) (h : rows.length ⌈/⌉ s < k) :
    (ofRows rows s k).items = [] := by
  have hrows : ¬ (k - 1) * s < rows.length := fun hlt => by
    have := (lt_ceilDiv_iff hs).mpr hlt
    omega
  apply List.eq_nil_of_length_eq_zero
  rw [length_ofRows]
  omega

theorem flatMap_ofRows (rows : List Row) (hs : 0 < s) :
    ((List.range' 1 (rows.length ⌈/⌉ s)).flatMap fun k => (ofRows rows s k).items) = rows := by
  have hall : rows.length ≤ rows.length ⌈/⌉ s * s := by
    have := not_lt.mp ((lt_ceilDiv_iff (n := rows.length) hs).not.mp (lt_irrefl _))
    exact this
  calc _ = rows.take (rows.length ⌈/⌉ s * s) := flatMap_windows rows s _
    _ = rows := List.take_of_length_le hall

theorem build_window (rows : List Row) (hs : 0 < s) (hk : 1 ≤ k) {q : Query} {d : Descriptor}
    (hlimit : q.limit = s) (hoffset : q.offset = (k - 1) * s) (hpage : d.page = k)
    (hsize : d.size = s) :
    build (Executor.window rows q.limit q.offset) rows.length q d = ofRows rows s k := by
  have hfrom : q.offset = ((k - 1) * s : ℕ) := by
    rw [hoffset, Nat.cast_mul, Nat.cast_sub hk, Nat.cast_one]
  have hwindow : Executor.window rows q.limit q.offset = (rows.drop ((k - 1) * s)).take s := by
    rw [Executor.window, hlimit, hfrom, Int.toNat_natCast, Int.toNat_natCast]
  have hfirst : decide (q.offset < 1) = decide (k = 1) := by
    refine decide_eq_decide.mpr ⟨fun h => ?_, fun h => by simp [hfrom, h]⟩
    by_contra hne
    have hpos : 0 < (k - 1) * s := Nat.mul_pos (by omega) hs
    omega
  have hlast : ((k : ℤ) == (rows.length ⌈/⌉ s : ℕ)) = decide (k = rows.length ⌈/⌉ s) := by
    rw [Bool.beq_eq_decide_eq]
    exact decide_eq_decide.mpr Nat.cast_inj
  have hcount : Metrics.pageCount rows.length q.limit = (rows.length ⌈/⌉ s : ℕ) := by
    rw [hlimit, Metrics.pageCount_eq_ceilDiv rows.length hs]
  simp only [build, Metrics.compute, hwindow, hcount, hfirst, hlast, hpage, hsize, ofRows]

end Page

/-! ### A request for a page -/

def Request.ofPage (k s : ℕ) : Request := .mapping [("page", .int k), ("size", .int s)]

/-- The page and its size are not looked up under each other's name. -/
def Config.KeepsPaging (c : Config) : Prop :=
  c.customParams = true → "size" ∉ c.pageParams ∧ "page" ∉ c.sizeParams

namespace Parameters

variable {c : Config} {k s : ℕ}

theorem valueOf_ofPage (name : String) :
    valueOf (Request.ofPage k s).fields name =
      if name = "page" then .int k else if name = "size" then .int s else .null := by
  by_cases hpage : name = "page"
  · simp [hpage, valueOf, Request.ofPage, Request.fields, Fields.get?]
  by_cases hsize : name = "size"
  · subst hsize
    rfl
  have hpage' : ((name : Text) == "page") = false := by simpa using hpage
  have hsize' : ((name : Text) == "size") = false := by simpa using hsize
  simp [hpage, hsize, hpage', hsize', valueOf, Request.ofPage, Request.fields, Fields.get?,
    List.lookup_cons]

theorem exists_find_eq (fields : Fields) (aliases : List String) (name : String) :
    ∃ a, (a ∈ aliases ∧ isMissing (valueOf fields a) = false ∨ a = name) ∧
      find fields aliases name = valueOf fields a := by
  rw [find]
  cases hfound : (aliases.map fun (a : String) => valueOf fields a).find?
    fun v => !(isMissing v) with
  | none => exact ⟨name, Or.inr rfl, rfl⟩
  | some v =>
    obtain ⟨a, ha, rfl⟩ := List.mem_map.mp (List.mem_of_find?_eq_some hfound)
    exact ⟨a, Or.inl ⟨ha, by simpa using List.find?_some hfound⟩, rfl⟩

theorem find_eq {fields : Fields} {aliases : List String} {name : String}
    (h : ∀ a ∈ aliases, valueOf fields a = valueOf fields name ∨ valueOf fields a = .null) :
    find fields aliases name = valueOf fields name := by
  obtain ⟨a, ⟨ha, hthere⟩ | rfl, hfind⟩ := exists_find_eq fields aliases name
  · rcases h a ha with heq | hnull
    · rw [hfind, heq]
    · simp [hnull, isMissing] at hthere
  · exact hfind

theorem page_ofPage (h : c.KeepsPaging) :
    ((Request.ofPage k s).parameters c).page = .int k := by
  have hplain : valueOf (Request.ofPage k s).fields "page" = .int k := valueOf_ofPage "page"
  show (if c.customParams then find _ c.pageParams "page" else valueOf _ "page") = _
  by_cases hcustom : c.customParams = true
  · rw [if_pos hcustom, find_eq, hplain]
    intro a ha
    have hne : a ≠ "size" := fun e => (h hcustom).1 (e ▸ ha)
    rw [hplain, valueOf_ofPage, if_neg hne]
    exact ite_eq_or_eq _ _ _
  · rw [if_neg hcustom, hplain]

theorem size_ofPage (h : c.KeepsPaging) :
    ((Request.ofPage k s).parameters c).size = .int s := by
  have hplain : valueOf (Request.ofPage k s).fields "size" = .int s := valueOf_ofPage "size"
  show (if c.customParams then find _ c.sizeParams "size" else valueOf _ "size") = _
  by_cases hcustom : c.customParams = true
  · rw [if_pos hcustom, find_eq, hplain]
    intro a ha
    have hne : a ≠ "page" := fun e => (h hcustom).2 (e ▸ ha)
    rw [hplain, valueOf_ofPage, if_neg hne]
    exact ite_eq_or_eq _ _ _
  · rw [if_neg hcustom, hplain]

/-- Such a request carries no filter, whatever the aliases. -/
theorem ofInput_filters_ofPage (c c' : Config) :
    Filter.ofInput c' ((Request.ofPage k s).parameters c).filters = .empty := by
  have hempty (name : String) :
      Filter.ofInput c' (valueOf (Request.ofPage k s).fields name) = .empty := by
    rw [valueOf_ofPage]
    split_ifs <;> rfl
  show Filter.ofInput c' (if c.customParams then find _ c.filterParams "filters"
    else valueOf _ "filters") = _
  by_cases hcustom : c.customParams = true
  · obtain ⟨a, -, ha⟩ := exists_find_eq (Request.ofPage k s).fields c.filterParams "filters"
    rw [if_pos hcustom, ha, hempty]
  · rw [if_neg hcustom, hempty]

end Parameters

namespace Descriptor

variable {c : Config} {k s : ℕ}

theorem positive?_natCast {n : ℕ} (hn : 1 ≤ n) (h : n ≤ 2 ^ 63 - 1) :
    positive? (.int n) = some (n : ℤ) := by
  have hmax : maxNumber.natAbs = 2 ^ 63 - 1 := rfl
  have hpos : (0 : ℤ) < n := by omega
  simp only [positive?, number?, rawNumber?, hmax, Option.filter, Int.natAbs_natCast,
    decide_eq_true h, decide_eq_true hpos, if_true]

/-- The page and the size that are asked for are those of the descriptor, as long as a database can
take the offset. -/
theorem ofRequest_ofPage (hc : c.KeepsPaging) (hk : 1 ≤ k) (hk' : k ≤ 2 ^ 63 - 1) (hs : 1 ≤ s)
    (hs' : s ≤ 2 ^ 63 - 1) (hoffset : (k - 1) * s ≤ 2 ^ 63 - 1) :
    (ofRequest c (.ofPage k s)).page = k ∧ (ofRequest c (.ofPage k s)).size = s ∧
      (ofRequest c (.ofPage k s)).filter = .empty := by
  have hsize : sizeOf c (.int s) = s := by rw [sizeOf, positive?_natCast hs hs', Option.getD_some]
  have hfits : ((k : ℤ) - 1) * s ≤ maxNumber := by
    have hcast : ((k : ℤ) - 1) * s = ((k - 1) * s : ℕ) := by
      rw [Nat.cast_mul, Nat.cast_sub hk, Nat.cast_one]
    have hmax : maxNumber = ((2 ^ 63 - 1 : ℕ) : ℤ) := rfl
    rw [hcast, hmax]
    exact_mod_cast hoffset
  have hpage : pageOf s (.int k) = k := by
    rw [pageOf, positive?_natCast hk hk', Option.filter_some, decide_eq_true hfits, if_pos rfl,
      Option.getD_some]
  have hdescriptor : ofRequest c (.ofPage k s) =
      ofParameters c ((Request.ofPage k s).parameters c) := rfl
  rw [hdescriptor, ofParameters, Parameters.page_ofPage hc, Parameters.size_ofPage hc, hsize,
    hpage, Parameters.ofInput_filters_ofPage]
  exact ⟨rfl, rfl, rfl⟩

end Descriptor

namespace Paginator

/-- Page `k` of size `s` is answered with the rows that stand there. -/
theorem paginate_ofPage (p : Paginator) (hnames : p.config.KeepsPaging)
    (hcount : p.config.CountsAnew p.cache) (name : String) (dialect : Option String)
    (rows : List Row) (allowed : List Text) {k s : ℕ} (hk : 1 ≤ k) (hk' : k ≤ 2 ^ 63 - 1)
    (hs : 1 ≤ s) (hs' : s ≤ 2 ^ 63 - 1) (hoffset : (k - 1) * s ≤ 2 ^ 63 - 1) :
    (p.paginate (.ofRows name dialect rows) (.ofPage k s) "" allowed).1.page =
      .ok (.ofRows rows s k) := by
  let i : Inquiry := { executor := .ofRows name dialect rows, request := .ofPage k s, allowed }
  have hconfig : (i.config p.config).KeepsPaging := hnames
  obtain ⟨hpage, hsize, hfilter⟩ := Descriptor.ofRequest_ofPage hconfig hk hk' hs hs' hoffset
  let q : Query := {
    limit := s
    offset := (k - 1) * s
    sorts := Query.sortKeys (i.config p.config) (i.descriptor p.config).sorts }
  have hquery : i.query p.config = .ok q := by
    have hpage : (i.descriptor p.config).page = k := hpage
    have hsize : (i.descriptor p.config).size = s := hsize
    have hfilter : (i.descriptor p.config).filter = .empty := hfilter
    rw [Inquiry.query, Query.ofDescriptor, hfilter, Descriptor.offset, hpage, hsize]
    rfl
  have hanswer : (p.respond i).1.page = i.uncached p.config := respond_page_of_label hcount rfl
  have hbuild : Page.build (Executor.window rows q.limit q.offset) rows.length q
      (i.descriptor p.config) = .ofRows rows s k :=
    Page.build_window rows hs hk rfl rfl hpage hsize
  rw [Inquiry.uncached_eq hquery] at hanswer
  exact hanswer.trans (congrArg Except.ok hbuild)

/-- Walking through the pages yields every row once. Pages `1` to `T` of some rows, where `T` is
their number divided by the page size and rounded up, are the rows when put together. Each tells how
many rows and pages there are and how many rows it shows; all are full but the last, which is not
empty, and the first and the last are marked as such. Behind them there are empty pages that are not
the last, and without rows so is the first page. -/
theorem walk_pages (p : Paginator) (hnames : p.config.KeepsPaging)
    (hcount : p.config.CountsAnew p.cache) (name : String) (dialect : Option String)
    (rows : List Row) (allowed : List Text) (hrows : rows.length ≤ 2 ^ 63 - 1) (s : ℕ)
    (hs : 1 ≤ s) (hs' : s ≤ 2 ^ 63 - 1) :
    let T := rows.length ⌈/⌉ s
    let answer (k : ℕ) :=
      (p.paginate (.ofRows name dialect rows) (.ofPage k s) "" allowed).1.page
    ∃ pages : ℕ → Page,
      ((List.range' 1 T).flatMap fun k => (pages k).items) = rows ∧
      (∀ k, 1 ≤ k → k ≤ T → answer k = .ok (pages k) ∧
        (pages k).total = rows.length ∧ (pages k).totalPages = T ∧ (pages k).maxPage = T ∧
        (pages k).visible = (pages k).items.length ∧
        (k < T → (pages k).items.length = s) ∧
        (k = T → 1 ≤ (pages k).items.length ∧ (pages k).items.length ≤ s) ∧
        ((pages k).first = true ↔ k = 1) ∧ ((pages k).last = true ↔ k = T)) ∧
      (∀ k, T < k → k ≤ 2 ^ 63 - 1 → (k - 1) * s ≤ 2 ^ 63 - 1 →
        answer k = .ok (pages k) ∧ (pages k).items = [] ∧ (pages k).last = false) ∧
      (rows = [] → T = 0 ∧ answer 1 = .ok (pages 1) ∧ (pages 1).items = [] ∧
        (pages 1).totalPages = 0 ∧ (pages 1).first = true ∧ (pages 1).last = false) := by
  intro T answer
  have hanswer {k : ℕ} (hk : 1 ≤ k) (hk' : k ≤ 2 ^ 63 - 1) (hoffset : (k - 1) * s ≤ 2 ^ 63 - 1) :
      answer k = .ok (.ofRows rows s k) :=
    paginate_ofPage p hnames hcount name dialect rows allowed hk hk' hs hs' hoffset
  refine ⟨Page.ofRows rows s, Page.flatMap_ofRows rows hs, ?_, ?_, ?_⟩
  · intro k hk hT
    have hbefore : (k - 1) * s < rows.length := (lt_ceilDiv_iff hs).mp (by omega)
    have hle : k - 1 ≤ (k - 1) * s := Nat.le_mul_of_pos_right _ hs
    refine ⟨hanswer hk (by omega) (by omega), rfl, rfl, rfl, rfl, Page.length_ofRows_of_lt hs hk,
      fun _ => ⟨Page.length_ofRows_pos hs hk hT, ?_⟩, ?_, ?_⟩
    · rw [Page.length_ofRows]
      exact Nat.min_le_left _ _
    · exact decide_eq_true_iff
    · exact decide_eq_true_iff
  · intro k hT hk hoffset
    have hlast : k ≠ rows.length ⌈/⌉ s := Nat.ne_of_gt hT
    exact ⟨hanswer (by omega) hk hoffset, Page.items_ofRows_of_gt hs hT, decide_eq_false hlast⟩
  · rintro rfl
    have hT : T = 0 := zero_ceilDiv s
    refine ⟨hT, hanswer le_rfl (by omega) (by omega), by simp [Page.ofRows], congrArg _ hT, rfl, ?_⟩
    simp [Page.ofRows]

/-- Five rows in pages of two, with another name for the page: the third page holds the last row. -/
theorem walk_pages_of_five :
    let p : Paginator := .ofConfig { customParams := true, pageParams := ["p"] } none
    let rows : List Row :=
      [⟨.int 1, rfl⟩, ⟨.int 2, rfl⟩, ⟨.text "three", by decide⟩, ⟨.null, rfl⟩, ⟨.int 5, rfl⟩]
    let answer (k : ℕ) := (p.paginate (.ofRows "users" none rows) (.ofPage k 2) "" []).1.page
    ∃ pages : ℕ → Page,
      (pages 1).items ++ (pages 2).items ++ (pages 3).items = rows ∧
      (∀ k, 1 ≤ k → k ≤ 3 → answer k = .ok (pages k)) ∧ (pages 3).last = true ∧
      (pages 4).items = [] := by
  intro p rows answer
  have hnames : p.config.KeepsPaging := fun _ => ⟨by decide, by decide⟩
  have hcount : p.config.CountsAnew p.cache := fun _ => rfl
  obtain ⟨pages, hall, hwalk, hbehind, -⟩ := walk_pages p hnames hcount "users" none rows []
    (by decide) 2 (by decide) (by decide)
  have hlength : rows.length = 5 := rfl
  have hT : rows.length ⌈/⌉ 2 = 3 := by rw [hlength, Nat.ceilDiv_eq_add_pred_div]
  rw [hT] at hall hwalk hbehind
  refine ⟨pages, ?_, fun k hk hk' => (hwalk k hk hk').1, ?_, ?_⟩
  · simpa [List.range'] using hall
  · have hthird := hwalk 3 (by decide) le_rfl
    exact hthird.2.2.2.2.2.2.2.2.mpr rfl
  · exact (hbehind 4 (by decide) (by decide) (by decide)).2.1

end Paginator

end Paging
