import Paging.Proofs.Canonical
import Paging.Proofs.Weave

/-! Placeholders and parameters side by side. The predicate of a filter is woven of those of
its comparisons, and each comparison has as many placeholders as parameters: no column
of any dialect is spelled like a placeholder. -/
namespace Paging

theorem FilterOperator.text_ne_placeholder (o : FilterOperator) : o.text ≠ "?" := by
  cases o <;> decide

theorem Dialect.escapeSuffix_ne_placeholder {d : Dialect} (hd : d ∈ Dialect.known) :
    d.escapeSuffix ≠ "?" := by
  rcases Dialect.mem_known_iff.mp hd with rfl | rfl | rfl | rfl | rfl <;> decide

theorem Atom.count_placeholder {d : Dialect} (hd : d ∈ Dialect.known) {a : Atom}
    (ha : a.Valid d) : (a.tokens d).count ("?" : Text) = a.arity := by
  have hcolumn := (ha.1.ne hd).2
  have hoperator := a.operator.text_ne_placeholder
  have hsuffix := Dialect.escapeSuffix_ne_placeholder hd
  cases a <;> simp only [column, operator] at hcolumn hoperator <;>
    simp [tokens, arity, hcolumn, hoperator, hsuffix]

namespace Predicate

open Paging.Filter

/-- The predicate of a comparison on its own: as many parameters as the comparison takes, a set as
a whole list. -/
structure OfComparison (cfg : Config) (c : Comparison) (q : Predicate) : Prop where
  compiled : ofFilter cfg (.comparison c) = .ok q
  params : q.params.length = c.parameterCount cfg
  set : c.Usable cfg → Comparison.family c.operator = .set → ∃ xs, q.params = [.list xs]
  balanced : q.Balanced

/-- What a filter compiles to: the predicates of its comparisons woven together. A connector is
a token of its own. -/
structure Woven (cfg : Config) (f : Filter) (p : Predicate) : Prop where
  parts : ∃ parts, List.Forall₂ (OfComparison cfg) f.comparisons parts ∧ Weave parts p
  connector : f.isConnector = true → ∃ k : Connector, p = ⟨[k.text], []⟩

variable {cfg : Config}

theorem balanced_of_forall₂ {cs : List Comparison} {parts : List Predicate}
    (h : List.Forall₂ (OfComparison cfg) cs parts) : ∀ q ∈ parts, q.Balanced := by
  induction h with
  | nil => simp
  | cons hq _ ih =>
    intro q hmem
    rcases List.mem_cons.mp hmem with rfl | hmem
    · exact hq.balanced
    · exact ih q hmem

theorem exists_coerced_eq_list {v : Value} (h : v.elements?.isSome = true) :
    ∃ xs, v.coerced = .list xs := by
  cases v with
  | list xs => exact ⟨_, rfl⟩
  | tuple xs => exact ⟨_, rfl⟩
  | _ => simp [Value.elements?] at h

theorem exists_ofComparison (hcfg : cfg.Untemplated) (c : Comparison)
    (hc : c.Canonical cfg.sqlDialect) :
    ∃ q, c.predicateOrEmpty cfg = .ok q ∧ OfComparison cfg c q := by
  obtain ⟨⟨o, ho⟩, hs⟩ := hc
  by_cases hu : c.Usable cfg
  · have hp := c.predicateOrEmpty_of_usable hcfg ho hs hu
    have hlength := (c.length_values ho hu).trans (c.arity_atom ho hu)
    have hcount := Atom.count_placeholder (Dialect.sqlDialect_mem_known cfg)
      (c.valid_atom o hu.1 hs)
    refine ⟨_, hp, hp, hlength, ?_, hcount.trans (c.length_values ho hu).symm⟩
    intro _ hset
    rw [ho, Comparison.family_text] at hset
    have hfits := hu.2
    rw [ho, Comparison.family_text, hset] at hfits
    obtain ⟨xs, hxs⟩ := exists_coerced_eq_list hfits
    exact ⟨xs, by simp [Comparison.values, hset, hxs]⟩
  · have hp := Comparison.predicateOrEmpty_of_not_usable hu
    refine ⟨_, hp, hp, ?_, fun h => absurd h hu, rfl⟩
    rw [Comparison.parameterCount, if_neg hu]
    rfl

theorem woven_comparison (hcfg : cfg.Untemplated) (c : Comparison)
    (hc : c.Canonical cfg.sqlDialect) :
    ∃ p, c.predicateOrEmpty cfg = .ok p ∧ Woven cfg (.comparison c) p := by
  obtain ⟨q, hq, hown⟩ := exists_ofComparison hcfg c hc
  have hweave : Weave [q] (q ++ {}) := .part q .nil
  have happend : q ++ {} = q := by
    show (⟨_, _⟩ : Predicate) = q
    simp
  rw [happend] at hweave
  exact ⟨q, hq, ⟨[q], .cons hown .nil, hweave⟩, fun h => by cases h⟩

/-! ### Groups -/

def concat (frs : List Fragment) : Predicate :=
  ⟨frs.flatMap fun fr => fr.predicate.tokens, frs.flatMap fun fr => fr.predicate.params⟩

theorem text_mem_glue (k : Connector) : k.text ∈ glue := by
  cases k <;> decide

def Joined (parts : List Predicate) : List Fragment → Prop
  | [] => Weave parts {}
  | fr :: frs => (∃ k : Connector, fr = connectorFragment k.text) ∧ Weave parts (concat frs)

theorem Joined.weave {parts : List Predicate} {frs : List Fragment} (h : Joined parts frs) :
    Weave parts (concat frs) := by
  cases frs with
  | nil => exact h
  | cons fr frs =>
    obtain ⟨⟨k, rfl⟩, hw⟩ := h
    exact .glue (text_mem_glue k) hw

theorem Joined.weave_tail {parts : List Predicate} {frs : List Fragment} (h : Joined parts frs) :
    Weave parts (concat frs.tail) := by
  cases frs with
  | nil => exact h
  | cons fr frs => exact h.2

theorem Joined.append_left {own parts : List Predicate} {frs : List Fragment}
    (hown : Weave own {}) (h : Joined parts frs) : Joined (own ++ parts) frs := by
  cases frs with
  | nil => exact hown.append h
  | cons fr frs => exact ⟨h.1, hown.append h.2⟩

theorem Joined.cons {own parts : List Predicate} {fr : Fragment} {frs : List Fragment}
    (k : Connector) (hown : Weave own fr.predicate) (h : Joined parts frs) :
    Joined (own ++ parts) (connectorFragment k.text :: fr :: frs) :=
  ⟨⟨k, rfl⟩, hown.append h.weave⟩

theorem eq_empty_of_balanced {p : Predicate} (hp : p.Balanced) (h : p.tokens = []) : p = {} := by
  have hparams : p.params = [] := by
    rw [← List.length_eq_zero_iff, ← hp, h]
    rfl
  cases p
  simp_all

/-- The repaired fragments behind an operand are woven of the comparisons that they come from. -/
theorem joined_of_woven {fs : List Filter} {frs : List Fragment}
    (h : List.Forall₂ (Compiled (Woven cfg)) fs frs) (pending : Option Fragment)
    (hpending : ∀ fr ∈ pending, ∃ k : Connector, fr = connectorFragment k.text) :
    ∃ parts, List.Forall₂ (OfComparison cfg) (comparisonsOf fs) parts ∧
      Joined parts (repaired cfg pending frs) := by
  induction h generalizing pending with
  | nil => exact ⟨[], .nil, .nil⟩
  | @cons f fr fs frs hf _ ih =>
    obtain ⟨hcon, ⟨own, hown, hweave⟩, hconnector⟩ := hf
    by_cases hf : f.isConnector = true
    · -- A connector waits for the next operand; the first one of a gap is kept.
      obtain ⟨k, hk⟩ := hconnector hf
      have hfr : fr = connectorFragment k.text := by
        cases fr
        simp_all [connectorFragment]
      obtain ⟨parts, hparts, hjoined⟩ := ih (pending.or (some fr)) (by
        intro x hx
        cases pending with
        | none => cases hx; exact ⟨k, hfr⟩
        | some y => exact hpending x hx)
      refine ⟨parts, ?_, ?_⟩
      · rw [comparisonsOf, comparisons_of_isConnector hf]
        exact hparts
      · rw [repaired_connector (hcon.trans hf) (by simp [hk])]
        exact hjoined
    · by_cases hempty : fr.predicate.tokens = []
      · -- Nothing is left of it: its parts have no tokens, and the pending connector stays.
        obtain ⟨parts, hparts, hjoined⟩ := ih pending hpending
        rw [eq_empty_of_balanced (hweave.balanced (balanced_of_forall₂ hown)) hempty] at hweave
        refine ⟨own ++ parts, List.rel_append hown hparts, ?_⟩
        rw [repaired_empty hempty]
        exact hjoined.append_left hweave
      · obtain ⟨parts, hparts, hjoined⟩ := ih none (by simp)
        obtain ⟨k, hk⟩ : ∃ k : Connector,
            pending.getD (connectorFragment cfg.operator.text) = connectorFragment k.text := by
          cases pending with
          | none => exact ⟨_, rfl⟩
          | some x => exact hpending x rfl
        refine ⟨own ++ parts, List.rel_append hown hparts, ?_⟩
        rw [repaired_operand (hcon.trans (by simpa using hf)) hempty, hk]
        exact hjoined.cons k hweave

theorem enclose_cons (fr : Fragment) (frs : List Fragment) :
    enclose (fr :: frs) = ⟨["("], []⟩ ++ (concat (fr :: frs) ++ (⟨[")"], []⟩ ++ {})) := by
  show (⟨_, _⟩ : Predicate) = ⟨_, _⟩
  simp [concat]

theorem woven_group {fs : List Filter} {frs : List Fragment}
    (h : List.Forall₂ (Compiled (Woven cfg)) fs frs) :
    Woven cfg (.group fs) (assemble cfg frs) := by
  obtain ⟨parts, hparts, hjoined⟩ := joined_of_woven h none (by simp)
  refine ⟨⟨parts, hparts, ?_⟩, fun h => by cases h⟩
  have hweave := hjoined.weave_tail
  rw [assemble_eq none]
  cases hi : (repaired cfg none frs).tail with
  | nil =>
    rw [hi] at hweave
    exact hweave
  | cons fr rest =>
    rw [hi] at hweave
    have hclose : Weave [] ((⟨[")"], []⟩ : Predicate) ++ {}) := .glue (by decide) .nil
    have happend := hweave.append hclose
    rw [List.append_nil] at happend
    rw [enclose_cons]
    exact .glue (by decide) happend

theorem woven (hcfg : cfg.Untemplated) {f : Filter} (hf : f.Canonical cfg.sqlDialect) :
    ∃ p, ofFilter cfg f = .ok p ∧ Woven cfg f p :=
  Compositional.ofFilter
    { comparison := woven_comparison hcfg
      connector := fun k => ⟨⟨[], .nil, .glue (text_mem_glue k) .nil⟩, fun _ => ⟨k, rfl⟩⟩
      group := fun _ _ => woven_group } f hf

/-- The predicate `p` of the comparisons `cs`, with a placeholder for each parameter: the parameters
are those of the comparisons from left to right, and each is bound within the segment of its
comparison. -/
structure Aligned (cfg : Config) (cs : List Comparison) (parts : List Predicate)
    (start : Nat → Nat) (p : Predicate) : Prop extends Segmented parts start p where
  own : List.Forall₂ (OfComparison cfg) cs parts
  params : p.params = parts.flatMap Predicate.params
  count : p.tokens.count ("?" : Text) = p.params.length

theorem Woven.aligned {f : Filter} {p : Predicate} (h : Woven cfg f p) :
    ∃ parts start, Aligned cfg f.comparisons parts start p := by
  obtain ⟨parts, hparts, hweave⟩ := h.parts
  have hbalanced := balanced_of_forall₂ hparts
  obtain ⟨start, hstart⟩ := hweave.segmented hbalanced
  exact ⟨parts, start, hstart, hparts, hweave.params, hweave.balanced hbalanced⟩

/-- Canonical filters compile to aligned predicates. A client's filter does so along the comparisons
in the order in which the client wrote them. -/
theorem placeholders_aligned (config : Config) (hf : config.fieldWrapper = "")
    (hv : config.valueWrapper = "") (dialect : Option String) :
    let cfg := config.resolve dialect
    (∀ f : Filter, f.Canonical cfg.sqlDialect → ∃ p parts start,
      ofFilter cfg f = .ok p ∧ Aligned cfg f.comparisons parts start p) ∧
    ∀ raw : Value, ∃ p parts start, ofFilter cfg (ofInput cfg raw) = .ok p ∧
      Aligned cfg (written cfg (clientValue raw)) parts start p := by
  intro cfg
  have hcfg : cfg.Untemplated := config.untemplated_resolve dialect hf hv
  have htree (f : Filter) (hcanonical : f.Canonical cfg.sqlDialect) : ∃ p parts start,
      ofFilter cfg f = .ok p ∧ Aligned cfg f.comparisons parts start p := by
    obtain ⟨p, hp, hwoven⟩ := woven hcfg hcanonical
    obtain ⟨parts, start, haligned⟩ := hwoven.aligned
    exact ⟨p, parts, start, hp, haligned⟩
  refine ⟨htree, ?_⟩
  intro raw
  rw [ofInput_eq, ← comparisons_ofValue]
  exact htree _ (canonical_ofValue cfg _)

/-- A range, a check for null and a set at different depths, with a comparison between them that is
dropped. -/
theorem placeholders_aligned_nested :
    let cfg := ({} : Config).resolve none
    let f : Filter := .group [.comparison ⟨"a", "BETWEEN", .list [.int 1, .int 2], ""⟩,
      .group [.comparison ⟨"b", "IS", .null, ""⟩, .connector "AND",
        .comparison ⟨"c", "IN", .int 3, ""⟩, .comparison ⟨"d", "NOT IN", .list [.int 4], ""⟩]]
    ({} : Config).fieldWrapper = "" ∧ ({} : Config).valueWrapper = "" ∧
      f.Canonical cfg.sqlDialect ∧ ∃ parts start, Aligned cfg f.comparisons parts start
        ⟨["(", "(", "a", "BETWEEN", "?", "AND", "?", ")", "OR", "(", "b", "IS", "NULL", "AND", "d",
          "NOT IN", "?", ")", ")"], [.int 1, .int 2, .list [.int 4]]⟩ := by
  intro cfg f
  have hcanonical : f.Canonical cfg.sqlDialect :=
    ⟨⟨⟨.between, rfl⟩, Or.inl rfl⟩, ⟨⟨⟨.is, rfl⟩, Or.inl rfl⟩, ⟨.and, rfl⟩,
      ⟨⟨.in_, rfl⟩, Or.inl rfl⟩, ⟨⟨.notIn, rfl⟩, Or.inl rfl⟩, trivial⟩, trivial⟩
  have hp : ofFilter cfg f = .ok ⟨["(", "(", "a", "BETWEEN", "?", "AND", "?", ")", "OR", "(", "b",
      "IS", "NULL", "AND", "d", "NOT IN", "?", ")", ")"], [.int 1, .int 2, .list [.int 4]]⟩ := rfl
  obtain ⟨p, parts, start, hp', haligned⟩ := (placeholders_aligned {} rfl rfl none).1 f hcanonical
  obtain rfl := Except.ok.inj (hp.symm.trans hp')
  exact ⟨rfl, rfl, hcanonical, parts, start, haligned⟩

end Predicate
end Paging
