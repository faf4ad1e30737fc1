import Paging.Proofs.Grammar

/-! A compiled predicate reads back as its filter. `ReadsAs` says which phrase is left of
a filter when its unusable comparisons are deleted, and with them the groups that
nothing is left of: what survives keeps its order and its nesting, and two surviving
neighbours are joined by the first connector that stands between them. -/
namespace Paging
namespace Filter

/-- Nothing in the filter can be expressed. -/
def Vanishes (cfg : Config) (f : Filter) : Prop :=
  ∀ c ∈ f.comparisons, ¬ c.Usable cfg

def connector? : Filter → Option Connector
  | .connector symbol => Connector.ofText? symbol
  | _ => none

/-- The connector between two survivors: the first that stands in the gap between them, else
that of the settings. -/
def joining (cfg : Config) (gap : List Filter) : Connector :=
  (gap.findSome? connector?).getD cfg.operator

mutual

/-- The phrase that is left of a filter. -/
inductive ReadsAs (cfg : Config) : Filter → Phrase → Prop
  | comparison {c : Comparison} {o : FilterOperator} : c.operator = o.text → c.Usable cfg →
      ReadsAs cfg (.comparison c) (.atom (c.atom cfg o))
  | group {gap rest : List Filter} {f : Filter} {p : Phrase} {t : Tail} :
      (∀ g ∈ gap, g.Vanishes cfg) → ReadsAs cfg f p → Follows cfg rest t →
      ReadsAs cfg (.group (gap ++ f :: rest)) (.group p t)

inductive Follows (cfg : Config) : List Filter → Tail → Prop
  | done {gap : List Filter} : (∀ g ∈ gap, g.Vanishes cfg) → Follows cfg gap .done
  | more {gap rest : List Filter} {f : Filter} {p : Phrase} {t : Tail} :
      (∀ g ∈ gap, g.Vanishes cfg) → ReadsAs cfg f p → Follows cfg rest t →
      Follows cfg (gap ++ f :: rest) (.more (joining cfg gap) p t)

end

variable {cfg : Config}

theorem vanishes_group {fs : List Filter} :
    (Filter.group fs).Vanishes cfg ↔ ∀ f ∈ fs, f.Vanishes cfg := by
  rw [Vanishes]
  rw [comparisons, comparisonsOf_eq_flatMap]
  simp only [List.mem_flatMap]
  constructor
  · intro h f hf c hc
    exact h c ⟨f, hf, hc⟩
  · rintro h c ⟨f, hf, hc⟩
    exact h f hf c hc

theorem vanishes_of_isConnector {f : Filter} (h : f.isConnector = true) : f.Vanishes cfg := by
  intro c hc
  rw [comparisons_of_isConnector h] at hc
  cases hc

theorem ReadsAs.not_vanishes {f : Filter} {p : Phrase} : ReadsAs cfg f p → ¬ f.Vanishes cfg
  | .comparison _ hu, hv => hv _ List.mem_cons_self hu
  | .group _ hf _, hv => hf.not_vanishes (vanishes_group.mp hv _ (by simp))

end Filter

namespace Predicate

open Paging.Filter

/-- What becomes of a filter: a connector stands for itself, and anything else leaves a phrase
or nothing. -/
inductive ReadBack (cfg : Config) : Filter → Predicate → Prop
  | connector (k : Connector) : ReadBack cfg (.connector k.text) ⟨[k.text], []⟩
  | nothing {f : Filter} : f.isConnector = false → f.Vanishes cfg → ReadBack cfg f {}
  | phrase {f : Filter} {p : Predicate} {t : Phrase} : f.isConnector = false → ReadsAs cfg f t →
      t.Derives cfg.sqlDialect p.tokens → ReadBack cfg f p

/-- The fragments behind an operand are laid out as a tail of a group. -/
def LaidOut (d : Dialect) : Tail → List Fragment → Prop
  | .done, frs => frs = []
  | .more k next rest, frs => ∃ frs', frs = connectorFragment k.text :: frs' ∧
      frs'.flatMap (fun fr => fr.predicate.tokens) = next.tokens d ++ rest.tokens d

variable {cfg : Config}

theorem LaidOut.tokens {d : Dialect} {t : Tail} {frs : List Fragment} (h : LaidOut d t frs) :
    frs.flatMap (fun fr => fr.predicate.tokens) = t.tokens d := by
  cases t with
  | done => rw [LaidOut] at h; subst h; rfl
  | more k next rest =>
    obtain ⟨frs', rfl, hf⟩ := h
    rw [List.flatMap_cons, hf]
    rfl

def pending (gap : List Filter) : Option Fragment :=
  (gap.findSome? connector?).map fun k => connectorFragment k.text

@[simp] theorem pending_nil : pending [] = none := rfl

theorem pending_getD (gap : List Filter) :
    (pending gap).getD (connectorFragment cfg.operator.text) =
      connectorFragment (joining cfg gap).text := by
  rw [joining, pending]
  cases gap.findSome? connector? <;> rfl

theorem pending_append_connector (gap : List Filter) (k : Connector) :
    pending (gap ++ [.connector k.text]) = (pending gap).or (some (connectorFragment k.text)) := by
  unfold pending
  rw [List.findSome?_append]
  cases gap.findSome? connector? <;> simp [connector?]

theorem pending_append_operand (gap : List Filter) {f : Filter} (hf : f.isConnector = false) :
    pending (gap ++ [f]) = pending gap := by
  have hnone : connector? f = none := by
    cases f <;> simp_all [connector?, Filter.isConnector]
  unfold pending
  rw [List.findSome?_append]
  simp [hnone]

theorem vanishes_snoc {gap : List Filter} {f : Filter} (hgap : ∀ g ∈ gap, g.Vanishes cfg)
    (hf : f.Vanishes cfg) : ∀ g ∈ gap ++ [f], g.Vanishes cfg := by
  intro g hg
  rcases List.mem_append.mp hg with hg | hg
  · exact hgap g hg
  · rw [List.mem_singleton.mp hg]
    exact hf

/-- The repaired fragments behind an operand read back as what follows it. `gap` is what was
passed over since the operand, and the first connector in it is pending. -/
theorem follows_of_compiled {fs : List Filter} {frs : List Fragment}
    (h : List.Forall₂ (Compiled (ReadBack cfg)) fs frs) (gap : List Filter)
    (hgap : ∀ g ∈ gap, g.Vanishes cfg) :
    ∃ t, Follows cfg (gap ++ fs) t ∧ t.Valid cfg.sqlDialect ∧
      LaidOut cfg.sqlDialect t (repaired cfg (pending gap) frs) := by
  induction h generalizing gap with
  | nil => exact ⟨.done, by simpa using Follows.done hgap, trivial, rfl⟩
  | @cons f fr fs frs hf _ ih =>
    obtain ⟨hcon, hres⟩ := hf
    obtain ⟨b, p⟩ := fr
    cases hres with
    | connector k =>
      have hv : (Filter.connector k.text).Vanishes cfg := vanishes_of_isConnector rfl
      obtain ⟨t, ht, hvalid, hlaid⟩ := ih _ (vanishes_snoc hgap hv)
      obtain rfl : b = true := hcon
      rw [pending_append_connector] at hlaid
      refine ⟨t, by simpa using ht, hvalid, ?_⟩
      rw [repaired_connector rfl (by simp)]
      exact hlaid
    | nothing hnot hv =>
      obtain ⟨t, ht, hvalid, hlaid⟩ := ih _ (vanishes_snoc hgap hv)
      rw [pending_append_operand gap hnot] at hlaid
      refine ⟨t, by simpa using ht, hvalid, ?_⟩
      rw [repaired_empty rfl]
      exact hlaid
    | @phrase _ _ q hnot hreads hder =>
      -- The next gap starts behind this operand.
      obtain ⟨t, ht, hvalid, hlaid⟩ := ih [] (by simp)
      obtain rfl : b = false := hcon.trans hnot
      have hne : p.tokens ≠ [] := hder.2 ▸ q.tokens_ne_nil
      refine ⟨.more (joining cfg gap) q t, .more hgap hreads ht, ⟨hder.1, hvalid⟩, ?_⟩
      rw [repaired_operand rfl hne, pending_getD]
      refine ⟨_, rfl, ?_⟩
      rw [List.flatMap_cons, ← pending_nil, hlaid.tokens, hder.2]

theorem readBack_group {fs : List Filter} {frs : List Fragment}
    (h : List.Forall₂ (Compiled (ReadBack cfg)) fs frs) :
    ReadBack cfg (.group fs) (assemble cfg frs) := by
  obtain ⟨t, ht, hvalid, hlaid⟩ := follows_of_compiled h [] (by simp)
  rw [List.nil_append] at ht
  rw [assemble_eq (pending [])]
  cases t with
  | done =>
    cases ht with | done hv =>
    rw [LaidOut] at hlaid
    rw [hlaid]
    exact .nothing rfl (vanishes_group.mpr hv)
  | more k next rest =>
    obtain ⟨frs', hcons, htokens⟩ := hlaid
    rw [hcons, List.tail_cons]
    have hgroup : ReadsAs cfg (.group fs) (.group next rest) := by
      cases ht with | more hgap hreads hfollows => exact .group hgap hreads hfollows
    refine .phrase rfl hgroup ⟨hvalid, ?_⟩
    cases frs' with
    | nil =>
      have hnil := List.append_eq_nil_iff.mp htokens.symm
      exact absurd hnil.1 next.tokens_ne_nil
    | cons fr frs' =>
      simp only [enclose, Phrase.tokens, htokens, List.cons_append, List.append_assoc]

/-- What a comparison compiles to reads back as its atom. -/
theorem readBack_comparison (hcfg : cfg.Untemplated) (c : Comparison)
    (hc : c.Canonical cfg.sqlDialect) :
    ∃ p, c.predicateOrEmpty cfg = .ok p ∧ ReadBack cfg (.comparison c) p := by
  obtain ⟨⟨o, ho⟩, hs⟩ := hc
  by_cases hu : c.Usable cfg
  · exact ⟨_, c.predicateOrEmpty_of_usable hcfg ho hs hu,
      .phrase rfl (.comparison ho hu) ⟨c.valid_atom o hu.1 hs, rfl⟩⟩
  · refine ⟨_, Comparison.predicateOrEmpty_of_not_usable hu, .nothing rfl ?_⟩
    intro c' hc'
    rw [List.mem_singleton.mp hc']
    exact hu

theorem readBack (hcfg : cfg.Untemplated) {f : Filter} (hf : f.Canonical cfg.sqlDialect) :
    ∃ p, ofFilter cfg f = .ok p ∧ ReadBack cfg f p :=
  Compositional.ofFilter
    { comparison := readBack_comparison hcfg
      connector := .connector
      group := fun _ _ => readBack_group } f hf

/-- The predicate of a filter is empty exactly if nothing in the filter can be expressed.
Otherwise its tokens have one derivation, and this is the phrase that is left of the filter. -/
theorem predicate_reads_back (config : Config) (hf : config.fieldWrapper = "")
    (hv : config.valueWrapper = "") (dialect : Option String) (f : Filter)
    (hcanonical : f.Canonical (config.resolve dialect).sqlDialect)
    (hroot : f.isConnector = false) :
    ∃ p, ofFilter (config.resolve dialect) f = .ok p ∧
      (p.tokens = [] ↔ ∀ c ∈ f.comparisons, ¬ c.Usable (config.resolve dialect)) ∧
      (p.tokens ≠ [] → ∃ t, ReadsAs (config.resolve dialect) f t ∧
        t.Derives (config.resolve dialect).sqlDialect p.tokens ∧
        ∀ u : Phrase, u.Derives (config.resolve dialect).sqlDialect p.tokens → u = t) := by
  obtain ⟨p, hp, hread⟩ := readBack (config.untemplated_resolve dialect hf hv) hcanonical
  refine ⟨p, hp, ?_⟩
  cases hread with
  | connector k => cases hroot
  | nothing _ hvanishes => exact ⟨⟨fun _ => hvanishes, fun _ => rfl⟩, fun h => absurd rfl h⟩
  | @phrase _ _ t _ hreads hder =>
    have hne : p.tokens ≠ [] := hder.2 ▸ t.tokens_ne_nil
    refine ⟨⟨fun h => absurd h hne, fun h => absurd h hreads.not_vanishes⟩, fun _ => ?_⟩
    exact ⟨t, hreads, hder, fun u hu => hu.unique (Dialect.sqlDialect_mem_known _) hder⟩

/-- Columns that are spelled like a connector and like `NULL`, next to connectors at the ends and
to a group that vanishes. -/
theorem predicate_reads_back_bare_words :
    let cfg := ({} : Config).resolve none
    let f : Filter := .group [.connector "OR", .comparison ⟨"AND", "=", .int 1, ""⟩,
      .connector "AND", .group [.comparison ⟨"?", "=", .int 2, ""⟩], .connector "OR",
      .comparison ⟨"NULL", "BETWEEN", .list [.int 3, .int 4], ""⟩]
    f.Canonical cfg.sqlDialect ∧ f.isConnector = false ∧
      ∃ t, ReadsAs cfg f t ∧ t.Derives cfg.sqlDialect
          ["(", "AND", "=", "?", "AND", "(", "NULL", "BETWEEN", "?", "AND", "?", ")", ")"] ∧
        ∀ u : Phrase, u.Derives cfg.sqlDialect
          ["(", "AND", "=", "?", "AND", "(", "NULL", "BETWEEN", "?", "AND", "?", ")", ")"] →
          u = t := by
  intro cfg f
  have hcanonical : f.Canonical cfg.sqlDialect :=
    ⟨⟨.or, rfl⟩, ⟨⟨.eq, rfl⟩, Or.inl rfl⟩, ⟨.and, rfl⟩,
      ⟨⟨⟨.eq, rfl⟩, Or.inl rfl⟩, trivial⟩, ⟨.or, rfl⟩, ⟨⟨.between, rfl⟩, Or.inl rfl⟩, trivial⟩
  have hp : ofFilter cfg f = .ok ⟨["(", "AND", "=", "?", "AND", "(", "NULL", "BETWEEN", "?", "AND",
      "?", ")", ")"], [.int 1, .int 3, .int 4]⟩ := rfl
  obtain ⟨p, hp', -, hread⟩ := predicate_reads_back {} rfl rfl none f hcanonical rfl
  obtain rfl := Except.ok.inj (hp.symm.trans hp')
  exact ⟨hcanonical, rfl, hread (by simp)⟩

end Predicate
end Paging
