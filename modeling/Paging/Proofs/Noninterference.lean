import Paging.Proofs.WellFormed

/-! A client's values stay out of the condition. Two filters that differ in nothing but the values
of their comparisons compile to the same tokens, as long as each comparison sees its two values
alike. Reader and compiler are run side by side: what is in step before a function is in step
after it. -/
namespace Paging

namespace Comparison

/-- What an operator of a family sees of its value is the same of both. A pattern match and a plain
comparison see nothing. -/
def SeenAlike : FilterOperator.Family → Value → Value → Prop
  | .nullCheck, v, w => isNull v = isNull w
  | .range, v, w => Fits v .range ↔ Fits w .range
  | .set, v, w => Fits v .set ↔ Fits w .set
  | .plain, _, _ | .pattern, _, _ => True

variable {family' : FilterOperator.Family} {v w : Value}

theorem SeenAlike.refl (family' : FilterOperator.Family) (v : Value) : SeenAlike family' v v := by
  cases family' <;> simp [SeenAlike]

theorem SeenAlike.fits (h : SeenAlike family' v w) : Fits v family' ↔ Fits w family' := by
  cases family' with
  | range => exact h
  | set => exact h
  | plain => exact Iff.rfl
  | nullCheck => exact Iff.rfl
  | pattern => exact Iff.rfl

/-- Two comparisons that differ at most in values which their operator sees alike. -/
structure InStep (c c' : Comparison) : Prop where
  column : c.column = c'.column
  operator : c.operator = c'.operator
  suffix : c.suffix = c'.suffix
  value : SeenAlike (family c.operator) c.value c'.value

end Comparison

namespace Filter

/-- Two filters of one shape whose comparisons are in step. -/
inductive InStep : Filter → Filter → Prop
  | comparison {c c' : Comparison} (h : c.InStep c') : InStep (.comparison c) (.comparison c')
  | connector (symbol : Text) : InStep (.connector symbol) (.connector symbol)
  | group {fs gs : List Filter} (h : List.Forall₂ InStep fs gs) : InStep (.group fs) (.group gs)

theorem InStep.isConnector {f g : Filter} (h : f.InStep g) : f.isConnector = g.isConnector := by
  cases h <;> rfl

namespace Raw

mutual

/-- Two items of a list: the same value, or two lists that differ in their values alone. -/
inductive SameItem : Value → Value → Prop
  | refl (v : Value) : SameItem v v
  | list {xs ys : List Value} (h : SameShape xs ys) : SameItem (.list xs) (.list ys)

/-- Two lists that differ in their values alone: those after a column, which are null together,
those after a column and an operator, which the operator sees alike, or those of the lists in
them. -/
inductive SameShape : List Value → List Value → Prop
  | implied (column : Text) {v w : Value} (h : v = .null ↔ w = .null) :
    SameShape [.text column, v] [.text column, w]
  | spelled (column : Text) (op : Value) {v w : Value}
    (h : ∀ s o, op = .text s → Spelling.read? s = some (.comparison o) →
      Comparison.SeenAlike o.family v w) :
    SameShape [.text column, op, v] [.text column, op, w]
  | parts {xs ys : List Value} (h : List.Forall₂ SameItem xs ys) : SameShape xs ys

end

/-- No operator sees more of a list than its length, which is the same. -/
theorem SameShape.length_eq {xs ys : List Value} (h : SameShape xs ys) :
    xs.length = ys.length := by
  cases h with
  | implied => rfl
  | spelled => rfl
  | parts h => exact h.length_eq

theorem SameItem.seenAlike {v w : Value} (h : SameItem v w) (family : FilterOperator.Family) :
    Comparison.SeenAlike family v w := by
  cases h with
  | refl => exact .refl family v
  | list h =>
    cases family <;>
      simp [Comparison.SeenAlike, Comparison.Fits, Comparison.isNull, Value.elements?, h.length_eq]

theorem SameItem.null_iff {v w : Value} (h : SameItem v w) : v = .null ↔ w = .null := by
  cases h <;> simp

theorem SameItem.forall₂_refl (xs : List Value) : List.Forall₂ SameItem xs xs := by
  rw [List.forall₂_same]
  intro v _
  exact .refl v

def isText : Value → Bool
  | .text _ => true
  | _ => false

theorem SameItem.isText_eq {v w : Value} (h : SameItem v w) : isText v = isText w := by
  cases h <;> rfl

/-! ### The operands of a list -/

theorem forall₂_lists {xs ys : List Value} (h : List.Forall₂ SameItem xs ys) :
    List.Forall₂ SameShape (lists xs) (lists ys) := by
  refine List.rel_filterMap ?_ h
  intro v w hvw
  cases hvw with
  | list hlist => exact .some hlist
  | refl =>
    cases v with
    | list zs => exact .some (.parts (SameItem.forall₂_refl zs))
    | _ => exact .none

theorem operands_eq (xs : List Value) :
    operands xs = match xs.map isText with
      | [true, _] => []
      | [true, _, _] => []
      | [_, true, _] => lists (xs.take 1)
      | _ => lists xs := by
  match xs with
  | [] => rfl
  | [x] => cases x <;> rfl
  | [x, y] => cases x <;> cases y <;> rfl
  | [x, y, _] => cases x <;> cases y <;> rfl
  | x :: y :: _ :: _ :: _ => cases x <;> cases y <;> rfl

theorem forall₂_operands {xs ys : List Value} (h : SameShape xs ys) :
    List.Forall₂ SameShape (operands xs) (operands ys) := by
  cases h with
  | implied => exact .nil
  | spelled => exact .nil
  | parts h =>
    have htexts : xs.map isText = ys.map isText := by
      induction h with
      | nil => rfl
      | cons hxy _ ih => rw [List.map_cons, List.map_cons, hxy.isText_eq, ih]
    rw [operands_eq, operands_eq, htexts]
    split
    · exact .nil
    · exact .nil
    · exact forall₂_lists (List.forall₂_take 1 h)
    · exact forall₂_lists h

end Raw

/-! ### The reader -/

variable {cfg : Config}

theorem inStep_spelled (column : Text) {op : Text} {s : Spelling} {v w : Value}
    (hs : Spelling.read? op = some s)
    (h : ∀ o, s = .comparison o → Comparison.SeenAlike o.family v w) :
    (spelled cfg column s v).InStep (spelled cfg column s w) := by
  cases s with
  | comparison o =>
    refine ⟨rfl, rfl, rfl, ?_⟩
    have hseen := h o rfl
    simpa [spelled, Comparison.family_text] using hseen
  | pattern word a =>
    have hfamily : a.operator.family = .pattern := Spelling.family_of_ofText? hs
    refine ⟨rfl, rfl, rfl, ?_⟩
    simp [spelled, patternMatch, Comparison.family_text, hfamily, Comparison.SeenAlike]

theorem inStep_leaf?_implied (column : Text) {v w : Value} (h : v = .null ↔ w = .null) :
    Option.Rel InStep (leaf? cfg [.text column, v]) (leaf? cfg [.text column, w]) := by
  have hoperator : impliedOperator v = impliedOperator w := by
    by_cases hv : v = .null
    · rw [hv, h.mp hv]
    · have hw : w ≠ .null := fun e => hv (h.mpr e)
      cases v <;> cases w <;> first | rfl | contradiction
  have hseen : Comparison.SeenAlike (Comparison.family (impliedOperator v).text) v w := by
    rw [Comparison.family_text]
    by_cases hv : v = .null
    · rw [hv, h.mp hv]
      exact .refl _ _
    · cases v <;> trivial
  rw [leaf?, leaf?]
  split
  · exact .none
  · exact .some (.comparison ⟨rfl, congrArg FilterOperator.text hoperator, rfl, hseen⟩)

/-- Of a column, an operator and a value no more is seen than what the operator sees. -/
theorem inStep_leaf?_spelled (column : Text) (op : Value) {v w : Value}
    (h : ∀ s o, op = .text s → Spelling.read? s = some (.comparison o) →
      Comparison.SeenAlike o.family v w) :
    Option.Rel InStep (leaf? cfg [.text column, op, v]) (leaf? cfg [.text column, op, w]) := by
  cases op with
  | text op =>
    rw [leaf?, leaf?]
    split
    · exact .none
    · cases hs : Spelling.read? op with
      | none => exact .none
      | some s =>
        refine .some (.comparison (inStep_spelled column hs fun o ho => ?_))
        exact h op o rfl (ho ▸ hs)
  | _ => exact .none

theorem inStep_leaf?_connector (s : Text) :
    Option.Rel InStep (leaf? cfg [.text s]) (leaf? cfg [.text s]) := by
  rw [leaf?]
  cases Connector.read? s with
  | none => exact .none
  | some k => exact .some (.connector k.text)

theorem leaf?_cons_eq_none {x : Value} (hx : Raw.isText x = false) (xs : List Value) :
    leaf? cfg (x :: xs) = none := by
  cases x with
  | text s => simp [Raw.isText] at hx
  | _ =>
    match xs with
    | [] => rfl
    | [_] => rfl
    | [_, _] => rfl
    | _ :: _ :: _ :: _ => rfl

theorem inStep_leaf?_text_cons (column : Text) {xs ys : List Value}
    (h : List.Forall₂ Raw.SameItem xs ys) :
    Option.Rel InStep (leaf? cfg (.text column :: xs)) (leaf? cfg (.text column :: ys)) := by
  match h with
  | .nil => exact inStep_leaf?_connector column
  | .cons hv .nil => exact inStep_leaf?_implied column hv.null_iff
  | .cons (.refl op) (.cons hv .nil) =>
    exact inStep_leaf?_spelled column op fun _ o _ _ => hv.seenAlike o.family
  | .cons (.list _) (.cons _ .nil) => exact .none
  | .cons _ (.cons _ (.cons _ _)) => exact .none

theorem inStep_leaf? {xs ys : List Value} (h : Raw.SameShape xs ys) :
    Option.Rel InStep (leaf? cfg xs) (leaf? cfg ys) := by
  cases h with
  | implied column h => exact inStep_leaf?_implied column h
  | spelled column op h => exact inStep_leaf?_spelled column op h
  | parts h =>
    cases h with
    | nil => exact .none
    | @cons x y _ _ hx hrest =>
      cases htext : Raw.isText x with
      | false =>
        have htext' : Raw.isText y = false := hx.isText_eq ▸ htext
        rw [leaf?_cons_eq_none htext, leaf?_cons_eq_none htext']
        exact .none
      | true =>
        cases hx with
        | list _ => simp [Raw.isText] at htext
        | refl =>
          cases x with
          | text column => exact inStep_leaf?_text_cons column hrest
          | _ => simp [Raw.isText] at htext

theorem inStep_groupOf? {fs gs : List Filter} (h : List.Forall₂ InStep fs gs) :
    Option.Rel InStep (groupOf? cfg fs) (groupOf? cfg gs) := by
  have hrepaired := forall₂_interleave (R := InStep) (fun _ _ hfg => hfg.isConnector)
    (.connector cfg.operator.text) h
  rw [groupOf?, groupOf?]
  generalize interleave isConnector (.connector cfg.operator.text) fs = fs' at hrepaired ⊢
  generalize interleave isConnector (.connector cfg.operator.text) gs = gs' at hrepaired ⊢
  cases hrepaired with
  | nil => exact .none
  | cons hf hrest => exact .some (.group (.cons hf hrest))

theorem inStep_ofList? {room : ℕ} {xs ys : List Value} (h : Raw.SameShape xs ys) :
    Option.Rel InStep (ofList? cfg room xs) (ofList? cfg room ys) := by
  induction room generalizing xs ys with
  | zero => exact .none
  | succ room ih =>
    have hchildren : List.Forall₂ InStep ((operands xs).filterMap (ofList? cfg room))
        ((operands ys).filterMap (ofList? cfg room)) :=
      List.rel_filterMap (fun _ _ hxy => ih hxy) (Raw.forall₂_operands h)
    rw [ofList?, ofList?]
    generalize (operands xs).filterMap (ofList? cfg room) = fs at hchildren ⊢
    generalize (operands ys).filterMap (ofList? cfg room) = gs at hchildren ⊢
    cases hchildren with
    | nil => exact inStep_leaf? h
    | cons hf hrest => exact inStep_groupOf? (.cons hf hrest)

theorem inStep_ofValue {v w : Value} (h : Raw.SameItem v w) :
    (ofValue cfg v).InStep (ofValue cfg w) := by
  have hempty : empty.InStep empty := .group .nil
  have hlist {xs ys : List Value} (h : Raw.SameShape xs ys) :
      (ofValue cfg (.list xs)).InStep (ofValue cfg (.list ys)) := by
    have hread : Option.Rel InStep (ofList? cfg (maxDepth + 1) xs)
        (ofList? cfg (maxDepth + 1) ys) := inStep_ofList? h
    rw [ofValue, ofValue]
    generalize ofList? cfg (maxDepth + 1) xs = f? at hread ⊢
    generalize ofList? cfg (maxDepth + 1) ys = g? at hread ⊢
    cases hread with
    | none => exact hempty
    | some hf =>
      cases hf with
      | comparison hc => exact .comparison hc
      | connector symbol => exact hempty
      | group hfs => exact .group hfs
  cases h with
  | list h => exact hlist h
  | refl v =>
    cases v with
    | list xs => exact hlist (.parts (Raw.SameItem.forall₂_refl xs))
    | _ => exact hempty

end Filter

/-! ### The compiler -/

structure Predicate.InStep (p q : Predicate) : Prop where
  tokens : p.tokens = q.tokens
  params : p.params.length = q.params.length

namespace Comparison

variable {cfg : Config} {c c' : Comparison}

theorem InStep.refl (c : Comparison) : c.InStep c :=
  ⟨rfl, rfl, rfl, .refl _ _⟩

theorem InStep.usable_iff (h : c.InStep c') : c.Usable cfg ↔ c'.Usable cfg := by
  rw [Usable, Usable, h.column, ← h.operator]
  exact and_congr_right fun _ => h.value.fits

theorem InStep.atom_eq (h : c.InStep c') {o : FilterOperator} (ho : c.operator = o.text) :
    c.atom cfg o = c'.atom cfg o := by
  have hvalue := h.value
  rw [ho, family_text] at hvalue
  rw [atom, atom, h.column, h.suffix]
  cases hf : o.family with
  | nullCheck =>
    rw [hf] at hvalue
    have hnull : isNull c.value = isNull c'.value := hvalue
    simp only [hnull]
  | _ => rfl

theorem InStep.predicateOrEmpty (hcfg : cfg.Untemplated) (h : c.InStep c')
    (hc : c.Canonical cfg.sqlDialect) :
    ∃ p p', c.predicateOrEmpty cfg = .ok p ∧ c'.predicateOrEmpty cfg = .ok p' ∧ p.InStep p' := by
  obtain ⟨⟨o, ho⟩, hs⟩ := hc
  have ho' : c'.operator = o.text := h.operator ▸ ho
  have hs' : c'.suffix = "" ∨ c'.suffix = cfg.sqlDialect.escapeSuffix := h.suffix ▸ hs
  by_cases hu : c.Usable cfg
  · have hu' : c'.Usable cfg := h.usable_iff.mp hu
    refine ⟨_, _, predicateOrEmpty_of_usable hcfg ho hs hu,
      predicateOrEmpty_of_usable hcfg ho' hs' hu', ?_, ?_⟩
    · rw [h.atom_eq ho]
    · rw [length_values ho hu, length_values ho' hu', h.atom_eq ho]
  · have hu' : ¬ c'.Usable cfg := fun hu' => hu (h.usable_iff.mpr hu')
    exact ⟨_, _, predicateOrEmpty_of_not_usable hu, predicateOrEmpty_of_not_usable hu',
      rfl, rfl⟩

end Comparison

namespace Predicate

variable {cfg : Config}

structure Fragment.InStep (fr fr' : Fragment) : Prop where
  isConnector : fr.isConnector = fr'.isConnector
  predicate : fr.predicate.InStep fr'.predicate

theorem inStep_enclose {frs frs' : List Fragment} (h : List.Forall₂ Fragment.InStep frs frs') :
    (enclose frs).InStep (enclose frs') := by
  have hflat : frs.flatMap (fun fr => fr.predicate.tokens) =
        frs'.flatMap (fun fr => fr.predicate.tokens) ∧
      (frs.flatMap fun fr => fr.predicate.params).length =
        (frs'.flatMap fun fr => fr.predicate.params).length := by
    induction h with
    | nil => exact ⟨rfl, rfl⟩
    | cons hfr _ ih =>
      simp only [List.flatMap_cons, List.length_append, hfr.predicate.tokens,
        hfr.predicate.params, ih, and_self]
  obtain ⟨htokens, hparams⟩ := hflat
  cases h with
  | nil => exact ⟨rfl, rfl⟩
  | cons _ _ => exact ⟨congrArg (fun ts => ("(" : Text) :: ts ++ [(")" : Text)]) htokens, hparams⟩

theorem inStep_assemble {frs frs' : List Fragment} (h : List.Forall₂ Fragment.InStep frs frs') :
    (assemble cfg frs).InStep (assemble cfg frs') := by
  have hkept : List.Forall₂ Fragment.InStep
      (frs.filter fun fr => !fr.predicate.tokens.isEmpty)
      (frs'.filter fun fr => !fr.predicate.tokens.isEmpty) := by
    refine List.rel_filter ?_ h
    intro fr fr' hfr
    simp [hfr.predicate.tokens]
  exact inStep_enclose
    (forall₂_interleave (fun _ _ hfr => hfr.isConnector) ⟨rfl, rfl, rfl⟩ hkept)

def FollowedBy (cfg : Config) (f : Filter) (p : Predicate) : Prop :=
  ∀ g : Filter, f.InStep g → ∃ q, ofFilter cfg g = .ok q ∧ p.InStep q

theorem followedBy_fragments {fs gs : List Filter} {frs : List Fragment}
    (hfrs : List.Forall₂ (Compiled (FollowedBy cfg)) fs frs)
    (h : List.Forall₂ Filter.InStep fs gs) :
    ∃ frs', fragments cfg gs = .ok frs' ∧ List.Forall₂ Fragment.InStep frs frs' := by
  induction hfrs generalizing gs with
  | nil =>
    cases h
    exact ⟨[], rfl, .nil⟩
  | cons hf _ ih =>
    cases h with
    | @cons _ g _ _ hfg hrest =>
      obtain ⟨q, hq, hpq⟩ := hf.result _ hfg
      obtain ⟨frs', hfrs', hall⟩ := ih hrest
      refine ⟨⟨g.isConnector, q⟩ :: frs', ?_, .cons ⟨?_, hpq⟩ hall⟩
      · simp [fragments, hq, hfrs', bind, Except.bind, pure, Except.pure]
      · rw [hf.isConnector, hfg.isConnector]

theorem compositional_followedBy (hcfg : cfg.Untemplated) :
    Compositional cfg (FollowedBy cfg) where
  comparison c hc := by
    obtain ⟨p, -, hp, -, -⟩ := Comparison.InStep.predicateOrEmpty hcfg (.refl c) hc
    refine ⟨p, hp, ?_⟩
    intro g hg
    cases hg with
    | comparison h =>
      obtain ⟨p', q, hp', hq, hpq⟩ := h.predicateOrEmpty hcfg hc
      cases hp.symm.trans hp'
      exact ⟨q, hq, hpq⟩
  connector k := by
    intro g hg
    cases hg
    exact ⟨_, rfl, rfl, rfl⟩
  group fs frs hfrs := by
    intro g hg
    cases hg with
    | group h =>
      obtain ⟨frs', hfrs', hall⟩ := followedBy_fragments hfrs h
      refine ⟨assemble cfg frs', ?_, inStep_assemble hall⟩
      simp [ofFilter, hfrs', bind, Except.bind, pure, Except.pure]

/-- A client's values never reach the condition. Take two filters, as a client may send them, that
differ in nothing but the values of their comparisons: after a column, where both are null or
neither is, and after a column and an operator, where both are null or say so or neither does for
`IS` and its negation, both are pairs or neither is for `BETWEEN` and its negation, both are lists
or neither is for `IN` and its negation, and nothing is asked for any other operator. Both compile,
to the same tokens and to as many parameters. -/
theorem tokens_independent_of_values (config : Config) (hf : config.fieldWrapper = "")
    (hv : config.valueWrapper = "") (dialect : Option String) {raw raw' : Value}
    (h : Filter.Raw.SameItem (Filter.clientValue raw) (Filter.clientValue raw')) :
    let cfg := config.resolve dialect
    ∃ p p', ofFilter cfg (Filter.ofInput cfg raw) = .ok p ∧
      ofFilter cfg (Filter.ofInput cfg raw') = .ok p' ∧
      p.tokens = p'.tokens ∧ p.params.length = p'.params.length := by
  intro cfg
  have hcfg : cfg.Untemplated := config.untemplated_resolve dialect hf hv
  have hstep : (Filter.ofInput cfg raw).InStep (Filter.ofInput cfg raw') := by
    rw [Filter.ofInput_eq, Filter.ofInput_eq]
    exact Filter.inStep_ofValue h
  have hcanonical : (Filter.ofInput cfg raw).Canonical cfg.sqlDialect :=
    Filter.ofInput_eq cfg raw ▸ Filter.canonical_ofValue cfg _
  obtain ⟨p, hp, hfollowed⟩ := (compositional_followedBy hcfg).ofFilter _ hcanonical
  obtain ⟨p', hp', hpp'⟩ := hfollowed _ hstep
  exact ⟨p, p', hp, hp', hpp'.tokens, hpp'.params⟩

def harmless : Value := .list [
  .list [.list [.text "age", .text "between", .list [.int 1, .int 2]], .list [.text "or"],
    .list [.text "state", .text "in", .list [.text "a", .text "b"]]],
  .list [.text "note", .text "is", .null],
  .list [.text "name", .text "contains", .text "x"],
  .list [.text "tag", .int 5]]

def hostile : Value := .list [
  .list [.list [.text "age", .text "between", .list [.text "1 OR", .text "1=1"]],
    .list [.text "or"],
    .list [.text "state", .text "in", .list [.list [.text "b", .text "=", .int 1]]]],
  .list [.text "note", .text "is", .text "Null"],
  .list [.text "name", .text "contains", .list [.text "or"]],
  .list [.text "tag", .text "'; DROP TABLE users; --"]]

theorem sameItem_harmless_hostile :
    Filter.Raw.SameItem (Filter.clientValue harmless) (Filter.clientValue hostile) := by
  refine .list (.parts (.cons (.list (.parts (.cons (.list ?age) (.cons (.refl _)
    (.cons (.list ?state) .nil))))) (.cons (.list ?note) (.cons (.list ?name)
      (.cons (.list ?tag) .nil)))))
  case tag => exact .implied "tag" (by simp)
  all_goals
    refine .spelled _ _ fun s o hs ho => ?_
    cases hs
    cases ho
  case age => simp [Comparison.SeenAlike, Comparison.Fits, Value.elements?, FilterOperator.family]
  case state => simp [Comparison.SeenAlike, Comparison.Fits, Value.elements?, FilterOperator.family]
  case note =>
    show Comparison.isNull .null = Comparison.isNull (.text "Null")
    decide

theorem tokens_independent_of_values_hostile :
    Filter.Raw.SameItem (Filter.clientValue harmless) (Filter.clientValue hostile) ∧
      ∃ p p', ofFilter (({} : Config).resolve (some "sqlite"))
          (Filter.ofInput (({} : Config).resolve (some "sqlite")) harmless) = .ok p ∧
        ofFilter (({} : Config).resolve (some "sqlite"))
          (Filter.ofInput (({} : Config).resolve (some "sqlite")) hostile) = .ok p' ∧
        p.tokens = p'.tokens ∧ p.params.length = p'.params.length :=
  ⟨sameItem_harmless_hostile,
    tokens_independent_of_values {} rfl rfl (some "sqlite") sameItem_harmless_hostile⟩

end Predicate
end Paging
