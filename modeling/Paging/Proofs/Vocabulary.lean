import Paging.Proofs.ReadBack
import Paging.Query

/-! The vocabulary of predicates. Whatever a client sends, its filter compiles to tokens
of a fixed vocabulary and to columns that are well-formed identifiers of the dialect,
and so do its sort keys. -/
namespace Paging

inductive InVocabulary (d : Dialect) : Text → Prop
  | opening : InVocabulary d "("
  | closing : InVocabulary d ")"
  | connector (k : Connector) : InVocabulary d k.text
  | placeholder : InVocabulary d "?"
  | null : InVocabulary d "NULL"
  | operator (o : FilterOperator) : InVocabulary d o.text
  | escape : d.escapeSuffix ≠ "" → InVocabulary d d.escapeSuffix
  | column {t : Text} : IsColumn d t → InVocabulary d t

variable {d : Dialect}

theorem Atom.inVocabulary {a : Atom} (ha : a.Valid d) : ∀ t ∈ a.tokens d, InVocabulary d t := by
  intro t ht
  have hcolumn : InVocabulary d a.column := .column ha.1
  cases a <;> simp only [tokens, List.mem_cons, List.not_mem_nil, or_false] at ht
  case bound c o =>
    rcases ht with rfl | rfl | rfl
    · exact hcolumn
    · exact .operator o
    · exact .placeholder
  case null c o =>
    rcases ht with rfl | rfl | rfl
    · exact hcolumn
    · exact .operator o
    · exact .null
  case escaped c o =>
    rcases ht with rfl | rfl | rfl | rfl
    · exact hcolumn
    · exact .operator o
    · exact .placeholder
    · exact .escape ha.2
  case between c o =>
    rcases ht with rfl | rfl | rfl | rfl | rfl | rfl | rfl
    · exact .opening
    · exact hcolumn
    · exact .operator o
    · exact .placeholder
    · exact .connector .and
    · exact .placeholder
    · exact .closing

mutual

theorem Phrase.inVocabulary : ∀ p : Phrase, p.Valid d → ∀ t ∈ p.tokens d, InVocabulary d t
  | .atom a, h, t, ht => Atom.inVocabulary h t ht
  | .group first rest, h, t, ht => by
    simp only [Phrase.tokens, List.mem_cons, List.mem_append, List.not_mem_nil, or_false] at ht
    rcases ht with rfl | ht | ht | rfl
    · exact .opening
    · exact first.inVocabulary h.1 t ht
    · exact rest.inVocabulary h.2 t ht
    · exact .closing

theorem Tail.inVocabulary : ∀ l : Tail, l.Valid d → ∀ t ∈ l.tokens d, InVocabulary d t
  | .done, _, t, ht => by cases ht
  | .more k next rest, h, t, ht => by
    simp only [Tail.tokens, List.mem_cons, List.mem_append] at ht
    rcases ht with rfl | ht | ht
    · exact .connector k
    · exact next.inVocabulary h.1 t ht
    · exact rest.inVocabulary h.2 t ht

end

/-- A quoted identifier ends at its last quote, whatever stands in it. -/
theorem IsIdentifier.afterQuote {q : Quoting} (hq : d.quoting = some q) {name : Text}
    (h : IsIdentifier d name) (rest : List Letter) (hrest : rest.head? ≠ some q.mark) :
    afterQuote q.mark (name.toList.tail ++ rest) = some rest := by
  rw [IsIdentifier] at h
  simp only [hq] at h
  obtain ⟨body, hname, hdoubled⟩ := h
  rw [hname, List.cons_append, List.tail_cons, List.append_assoc]
  exact hdoubled.afterQuote rest hrest

variable {cfg : Config}

theorem Predicate.inVocabulary (hcfg : cfg.Untemplated) {f : Filter}
    (hf : f.Canonical cfg.sqlDialect) (hroot : f.isConnector = false) :
    ∃ p, ofFilter cfg f = .ok p ∧ ∀ t ∈ p.tokens, InVocabulary cfg.sqlDialect t := by
  obtain ⟨p, hp, hread⟩ := readBack hcfg hf
  refine ⟨p, hp, ?_⟩
  cases hread with
  | connector k => cases hroot
  | nothing _ _ => intro t ht; cases ht
  | @phrase _ _ t _ _ hder => exact hder.2 ▸ t.inVocabulary hder.1

theorem Predicate.inVocabulary_ofValue (hcfg : cfg.Untemplated) (v : Value) :
    ∃ p, ofFilter cfg (Filter.ofValue cfg v) = .ok p ∧
      ∀ t ∈ p.tokens, InVocabulary cfg.sqlDialect t :=
  inVocabulary hcfg (Filter.canonical_ofValue cfg v) (Filter.isConnector_ofValue cfg v)

theorem Predicate.inVocabulary_ofInput (hcfg : cfg.Untemplated) (raw : Value) :
    ∃ p, ofFilter cfg (Filter.ofInput cfg raw) = .ok p ∧
      ∀ t ∈ p.tokens, InVocabulary cfg.sqlDialect t := by
  rw [Filter.ofInput_eq]
  exact inVocabulary_ofValue hcfg _

theorem Query.isIdentifier_of_mem_sortKeys {sorts : List SortKey} {s : SortKey}
    (h : s ∈ sortKeys cfg sorts) : IsIdentifier cfg.sqlDialect s.column := by
  obtain ⟨hs, hne⟩ := List.mem_filter.mp h
  obtain ⟨s', -, rfl⟩ := List.mem_map.mp hs
  have hcolumn : Comparison.columnToken cfg s'.column ≠ "" := by simpa using hne
  exact Dialect.isIdentifier_quote _ _ hcolumn

theorem Query.ofDescriptor_eq {p : Predicate} {d : Descriptor}
    (hp : Predicate.ofFilter cfg d.filter = .ok p) :
    ofDescriptor cfg d = .ok
      { wheres := p.tokens, params := p.params, limit := d.size, offset := d.offset,
        sorts := sortKeys cfg d.sorts } := by
  simp [ofDescriptor, hp, bind, Except.bind, pure, Except.pure]

/-- Whatever a client sends as a filter or as a whole request, it compiles, every token of the
condition is in the vocabulary, every sort key has an identifier for its column, and no
identifier ends before its closing quote. The second part holds of any decoder of filters: it
does not say where the decoded value comes from. -/
theorem vocabulary_of_client_input (config : Config) (hf : config.fieldWrapper = "")
    (hv : config.valueWrapper = "") (dialect : Option String) :
    let cfg := config.resolve dialect
    (∀ raw : Value, ∃ p, Predicate.ofFilter cfg (Filter.ofInput cfg raw) = .ok p ∧
      ∀ t ∈ p.tokens, InVocabulary cfg.sqlDialect t) ∧
    (∀ decoded : Value, ∃ p, Predicate.ofFilter cfg (Filter.ofValue cfg decoded) = .ok p ∧
      ∀ t ∈ p.tokens, InVocabulary cfg.sqlDialect t) ∧
    (∀ r : Request, ∃ q, Query.ofDescriptor cfg (Descriptor.ofRequest cfg r) = .ok q ∧
      (∀ t ∈ q.wheres, InVocabulary cfg.sqlDialect t) ∧
      ∀ s ∈ q.sorts, IsIdentifier cfg.sqlDialect s.column ∧
        (s.direction.text = "ASC" ∨ s.direction.text = "DESC")) ∧
    ∀ q, cfg.sqlDialect.quoting = some q → ∀ name, IsIdentifier cfg.sqlDialect name →
      ∀ rest : List Letter, rest.head? ≠ some q.mark →
        afterQuote q.mark (name.toList.tail ++ rest) = some rest := by
  intro cfg
  have hcfg : cfg.Untemplated := config.untemplated_resolve dialect hf hv
  refine ⟨Predicate.inVocabulary_ofInput hcfg, Predicate.inVocabulary_ofValue hcfg, ?_,
    fun q hq name hname rest => hname.afterQuote hq rest⟩
  intro r
  obtain ⟨p, hp, htokens⟩ : ∃ p,
      Predicate.ofFilter cfg (Descriptor.ofRequest cfg r).filter = .ok p ∧
        ∀ t ∈ p.tokens, InVocabulary cfg.sqlDialect t :=
    Predicate.inVocabulary_ofInput hcfg (r.parameters cfg).filters
  have hq := Query.ofDescriptor_eq hp
  refine ⟨_, hq, htokens, ?_⟩
  intro s hs
  refine ⟨Query.isIdentifier_of_mem_sortKeys hs, ?_⟩
  cases s.direction with
  | ascending => exact Or.inl rfl
  | descending => exact Or.inr rfl

def quotedRequest : Request :=
  .mapping [("sort", .text "-user.na\"me;--"), ("filters", .list
    [.list [.text "a\" OR 1=1 --", .text "; contains )", .text "x"], .list [.text " aNd"],
      .list [.text "b%", .text "is", .null]])]

theorem quotedRequest_compiled :
    (Query.ofDescriptor (({} : Config).resolve (some "sqlite"))
      (Descriptor.ofRequest (({} : Config).resolve (some "sqlite")) quotedRequest)).toOption.map
        (fun q => (q.wheres, q.sorts)) =
      some ((["(", "LOWER(\"a\"\" OR 1=1 --\")", "LIKE", "?", "ESCAPE '\\'", "AND", "\"b%\"",
        "IS", "NULL", ")"], [⟨"\"User__name\"", .descending⟩]) : List Text × List SortKey) := by
  rfl

theorem vocabulary_of_client_input_quoted :
    ({} : Config).fieldWrapper = "" ∧ ({} : Config).valueWrapper = "" ∧
      (∀ t ∈ (["(", "LOWER(\"a\"\" OR 1=1 --\")", "LIKE", "?", "ESCAPE '\\'", "AND", "\"b%\"", "IS",
        "NULL", ")"] : List Text),
        InVocabulary (({} : Config).resolve (some "sqlite")).sqlDialect t) ∧
      IsIdentifier (({} : Config).resolve (some "sqlite")).sqlDialect "\"User__name\"" := by
  obtain ⟨q, hq, htokens, hsorts⟩ :=
    (vocabulary_of_client_input {} rfl rfl (some "sqlite")).2.2.1 quotedRequest
  have hwritten := quotedRequest_compiled
  rw [hq] at hwritten
  obtain ⟨hw, hs⟩ := Prod.mk.inj (Option.some.inj hwritten)
  rw [hw] at htokens
  rw [hs] at hsorts
  exact ⟨rfl, rfl, htokens, (hsorts _ List.mem_cons_self).1⟩

end Paging
