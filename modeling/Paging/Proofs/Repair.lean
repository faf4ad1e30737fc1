import Paging.Proofs.Discarding
import Paging.Proofs.WellFormed

/-! The repair of connectors is canonical. There is one list that starts and ends with an operand,
has the operands of the given list in their order, and between two neighbours the first connector
that the given list has between them, or the one that is filled in; this is the repaired list. A
list in which operands and connectors take turns is its own repair, so a filter that is read from a
client compiles as it stands if all of it can be expressed. -/
namespace Paging

variable {α : Type} {isConnector : α → Bool} {fill : α}

def operandsOf (isConnector : α → Bool) (xs : List α) : List α :=
  xs.filter fun x => !isConnector x

/-- The list `ys` is `xs` with its connectors repaired: it has the same operands in the same order,
one of them at each end, and wherever connectors `gap` stand between two neighbouring operands of
`xs`, it has one connector between them, the first of `gap` or, if that is empty, `fill`. -/
structure IsRepair (isConnector : α → Bool) (fill : α) (xs ys : List α) : Prop where
  operands : operandsOf isConnector ys = operandsOf isConnector xs
  first : ∀ y ∈ ys.head?, isConnector y = false
  last : ∀ y ∈ ys.getLast?, isConnector y = false
  between : ∀ before x gap y behind, xs = before ++ x :: (gap ++ y :: behind) →
    isConnector x = false → isConnector y = false → (∀ k ∈ gap, isConnector k = true) →
      ∃ before' behind', ys = before' ++ x :: gap.headD fill :: y :: behind' ∧
        operandsOf isConnector before' = operandsOf isConnector before

/-! ### Operands -/

theorem operandsOf_append (xs ys : List α) :
    operandsOf isConnector (xs ++ ys) = operandsOf isConnector xs ++ operandsOf isConnector ys :=
  List.filter_append xs ys

theorem operandsOf_operand {x : α} (hx : isConnector x = false) (xs : List α) :
    operandsOf isConnector (x :: xs) = x :: operandsOf isConnector xs :=
  List.filter_cons_of_pos (by simp [hx])

theorem operandsOf_connector {k : α} (hk : isConnector k = true) (xs : List α) :
    operandsOf isConnector (k :: xs) = operandsOf isConnector xs :=
  List.filter_cons_of_neg (by simp [hk])

theorem operandsOf_eq_nil_iff {xs : List α} :
    operandsOf isConnector xs = [] ↔ ∀ k ∈ xs, isConnector k = true := by
  simp [operandsOf]

theorem exists_of_operandsOf_eq_cons {x : α} {xs operands : List α}
    (h : operandsOf isConnector xs = x :: operands) :
    ∃ gap behind, xs = gap ++ x :: behind ∧ (∀ k ∈ gap, isConnector k = true) ∧
      isConnector x = false ∧ operandsOf isConnector behind = operands := by
  obtain ⟨gap, behind, hxs, hgap, hx, hbehind⟩ := List.filter_eq_cons_iff.mp h
  exact ⟨gap, behind, hxs, by simpa using hgap, by simpa using hx, hbehind⟩

theorem operandsOf_interleaveAfter (hfill : isConnector fill = true) (xs : List α) :
    operandsOf isConnector (interleaveAfter isConnector fill none xs) =
      operandsOf isConnector xs := by
  have hflat (zs : List α) : operandsOf isConnector zs =
      zs.flatMap fun z => if isConnector z then [] else [z] := by
    induction zs with
    | nil => rfl
    | cons z zs ih =>
      by_cases hz : isConnector z = true
      · rw [operandsOf_connector hz, ih, List.flatMap_cons, if_pos hz, List.nil_append]
      · rw [operandsOf_operand (by simpa using hz), ih, List.flatMap_cons, if_neg hz]
        rfl
  rw [hflat, hflat]
  exact flatMap_interleaveAfter _ (fun _ hx => if_pos hx) hfill none (by simp) xs

/-! ### The repaired list is a repair -/

theorem interleaveAfter_connectors {ks : List α} (hks : ∀ k ∈ ks, isConnector k = true)
    (pending : Option α) (xs : List α) :
    interleaveAfter isConnector fill pending (ks ++ xs) =
      interleaveAfter isConnector fill (pending.or ks.head?) xs := by
  induction ks generalizing pending with
  | nil => simp
  | cons k ks ih =>
    obtain ⟨hk, hks⟩ := List.forall_mem_cons.mp hks
    rw [List.cons_append, interleaveAfter, if_pos hk, ih hks]
    cases pending <;> rfl

theorem interleave_append_operand {x : α} (hx : isConnector x = false) (before behind : List α) :
    interleave isConnector fill (before ++ x :: behind) =
      (interleaveAfter isConnector fill none before ++
          [(pendingAfter isConnector none before).getD fill]).tail ++
        x :: interleaveAfter isConnector fill none behind := by
  have hoperand : ¬ isConnector x = true := by simp [hx]
  rw [interleave_eq_tail none, interleaveAfter_append, interleaveAfter, if_neg hoperand,
    List.append_cons, List.tail_append_of_ne_nil (by simp)]

/-! Behind an operand, too, the repaired list starts with a connector, which the repair drops at the
front. -/

theorem operandsOf_tail {xs : List α} (h : AlternatesAfter isConnector xs) :
    operandsOf isConnector xs.tail = operandsOf isConnector xs :=
  match xs, h with
  | [], _ => rfl
  | _ :: _ :: _, h => (operandsOf_connector h.1 _).symm

theorem last_of_alternatesAfter : ∀ {xs : List α}, AlternatesAfter isConnector xs →
    ∀ y ∈ xs.getLast?, isConnector y = false
  | [], _ => by simp
  | [_, x], h => by
    intro y hy
    obtain rfl : x = y := by simpa using hy
    exact h.2.1
  | _ :: _ :: k :: r, h => by
    intro y hy
    rw [List.getLast?_cons_cons, List.getLast?_cons_cons] at hy
    exact last_of_alternatesAfter h.2.2 y hy

theorem operandsOf_before (hfill : isConnector fill = true) (before : List α) :
    operandsOf isConnector (interleaveAfter isConnector fill none before ++
        [(pendingAfter isConnector none before).getD fill]).tail =
      operandsOf isConnector before := by
  have hpending : isConnector ((pendingAfter isConnector none before).getD fill) = true := by
    cases hk : pendingAfter isConnector none before with
    | none => exact hfill
    | some k => exact isConnector_pendingAfter (by simp) before k hk
  have halternates := alternatesAfter_interleaveAfter hfill none (by simp) before
  rw [← operandsOf_interleaveAfter hfill before, ← operandsOf_tail halternates]
  cases interleaveAfter isConnector fill none before with
  | nil => rfl
  | cons k ys =>
    rw [List.cons_append, List.tail_cons, List.tail_cons, operandsOf_append,
      operandsOf_connector hpending]
    exact List.append_nil _

theorem isRepair_interleave (hfill : isConnector fill = true) (xs : List α) :
    IsRepair isConnector fill xs (interleave isConnector fill xs) := by
  have halternates := alternatesAfter_interleaveAfter hfill none (by simp) xs
  have htail : interleave isConnector fill xs =
      (interleaveAfter isConnector fill none xs).tail := interleave_eq_tail none xs
  constructor
  case operands =>
    rw [htail, operandsOf_tail halternates, operandsOf_interleaveAfter hfill]
  case first =>
    intro y hy
    have hturns := alternates_interleave hfill (List.ne_nil_of_mem (List.mem_of_mem_head? hy))
    cases hys : interleave isConnector fill xs with
    | nil =>
      rw [hys] at hy
      cases hy
    | cons z zs =>
      rw [hys] at hy hturns
      obtain rfl : z = y := by simpa using hy
      exact hturns.1
  case last =>
    intro y hy
    refine last_of_alternatesAfter halternates y ?_
    rw [htail, List.getLast?_tail] at hy
    split at hy
    · cases hy
    · exact hy
  case between =>
    intro before x gap y behind hxs hx hy hgap
    have hoperand : ¬ isConnector y = true := by simp [hy]
    refine ⟨_, interleaveAfter isConnector fill none behind, ?_, operandsOf_before hfill before⟩
    rw [hxs, interleave_append_operand hx, interleaveAfter_connectors hgap, interleaveAfter,
      if_neg hoperand]
    cases gap <;> rfl

/-! ### There is no other repair -/

section

variable {xs ys zs : List α} {x y : α}

theorem IsRepair.eq_nil (h : IsRepair isConnector fill xs ys)
    (hxs : operandsOf isConnector xs = []) : ys = [] := by
  have hnone := operandsOf_eq_nil_iff.mp (h.operands.trans hxs)
  cases ys with
  | nil => rfl
  | cons y ys =>
    have hy := h.first y rfl
    rw [hnone y List.mem_cons_self] at hy
    cases hy

theorem IsRepair.eq_singleton (h : IsRepair isConnector fill xs ys)
    (hxs : operandsOf isConnector xs = [x]) : ys = [x] := by
  obtain ⟨gap, behind, rfl, hgap, hx, hbehind⟩ :=
    exists_of_operandsOf_eq_cons (h.operands.trans hxs)
  have hgap' : gap = [] := by
    cases gap with
    | nil => rfl
    | cons k gap =>
      have hk := h.first k rfl
      rw [hgap k List.mem_cons_self] at hk
      cases hk
  have hbehind' : behind = [] := by
    rcases List.eq_nil_or_concat behind with hnil | ⟨front, k, hk⟩
    · exact hnil
    · have hlast := h.last k (by
        rw [hk, List.concat_eq_append, ← List.cons_append, ← List.append_assoc]
        exact List.getLast?_concat)
      rw [operandsOf_eq_nil_iff.mp hbehind k (by simp [hk])] at hlast
      cases hlast
  rw [hgap', hbehind', List.nil_append]

/-- A repair starts with the first operand and one connector, and goes on with a repair of what
stands from the second operand on. -/
theorem IsRepair.exists_cons {lead gap behind : List α} (hfill : isConnector fill = true)
    (hlead : ∀ k ∈ lead, isConnector k = true) (hgap : ∀ k ∈ gap, isConnector k = true)
    (hx : isConnector x = false) (hy : isConnector y = false)
    (h : IsRepair isConnector fill (lead ++ x :: (gap ++ y :: behind)) ys) :
    ∃ rest, ys = x :: gap.headD fill :: rest ∧ IsRepair isConnector fill (y :: behind) rest := by
  have hk : isConnector (gap.headD fill) = true := by
    cases gap with
    | nil => exact hfill
    | cons k gap => exact hgap k List.mem_cons_self
  have hlead' := operandsOf_eq_nil_iff.mpr hlead
  have hgap' := operandsOf_eq_nil_iff.mpr hgap
  obtain ⟨before, behind', hys, hbefore⟩ := h.between lead x gap y behind rfl hx hy hgap
  obtain rfl : before = [] := by
    cases before with
    | nil => rfl
    | cons z before =>
      have hz := h.first z (by simp [hys])
      rw [hlead', operandsOf_operand hz] at hbefore
      cases hbefore
  rw [List.nil_append] at hys
  refine ⟨y :: behind', hys, ?_, ?_, ?_, ?_⟩
  · have hall := h.operands
    rw [hys, operandsOf_append, hlead', List.nil_append, operandsOf_operand hx,
      operandsOf_operand hx, operandsOf_append, hgap', operandsOf_connector hk] at hall
    exact (List.cons.inj hall).2
  · intro z hz
    obtain rfl : y = z := by simpa using hz
    exact hy
  · intro z hz
    exact h.last z (by rw [hys, List.getLast?_cons_cons, List.getLast?_cons_cons]; exact hz)
  · intro front a gap' b back hsplit ha hb hgap''
    obtain ⟨front', back', hys', hfront⟩ := h.between (lead ++ x :: (gap ++ front)) a gap' b back
      (by rw [hsplit]; simp) ha hb hgap''
    rw [operandsOf_append, hlead', List.nil_append, operandsOf_operand hx, operandsOf_append,
      hgap', List.nil_append] at hfront
    rw [hys] at hys'
    -- The first operand and the connector behind it stand in front of any later pair.
    cases front' with
    | nil => cases hfront
    | cons z front' =>
      obtain ⟨rfl, hrest⟩ := List.cons.inj hys'
      cases front' with
      | nil =>
        obtain rfl : gap.headD fill = a := (List.cons.inj hrest).1
        rw [hk] at ha
        cases ha
      | cons k front' =>
        obtain ⟨rfl, hbehind⟩ := List.cons.inj hrest
        rw [operandsOf_operand hx, operandsOf_connector hk] at hfront
        exact ⟨front', back', hbehind, (List.cons.inj hfront).2⟩

theorem IsRepair.unique (hfill : isConnector fill = true) (hys : IsRepair isConnector fill xs ys)
    (hzs : IsRepair isConnector fill xs zs) : ys = zs := by
  induction hxs : operandsOf isConnector xs generalizing xs ys zs with
  | nil => rw [hys.eq_nil hxs, hzs.eq_nil hxs]
  | cons x operands ih =>
    cases operands with
    | nil => rw [hys.eq_singleton hxs, hzs.eq_singleton hxs]
    | cons y operands =>
      obtain ⟨lead, back, rfl, hlead, hx, hback⟩ := exists_of_operandsOf_eq_cons hxs
      obtain ⟨gap, behind, rfl, hgap, hy, hbehind⟩ := exists_of_operandsOf_eq_cons hback
      obtain ⟨ys', rfl, hys'⟩ := hys.exists_cons hfill hlead hgap hx hy
      obtain ⟨zs', rfl, hzs'⟩ := hzs.exists_cons hfill hlead hgap hx hy
      rw [ih hys' hzs' (by rw [operandsOf_operand hy, hbehind])]

end

/-! ### Lists that are repaired alike -/

theorem interleave_connectors_append {ks : List α} (hks : ∀ k ∈ ks, isConnector k = true)
    (xs : List α) :
    interleave isConnector fill (ks ++ xs) = interleave isConnector fill xs := by
  rw [interleave_eq_tail none, interleaveAfter_connectors hks, ← interleave_eq_tail]

theorem interleave_append_connectors {ks : List α} (hks : ∀ k ∈ ks, isConnector k = true)
    (xs : List α) :
    interleave isConnector fill (xs ++ ks) = interleave isConnector fill xs := by
  have hnone (pending : Option α) : interleaveAfter isConnector fill pending ks = [] := by
    have happend : interleaveAfter isConnector fill pending (ks ++ []) = [] :=
      interleaveAfter_connectors hks pending []
    rwa [List.append_nil] at happend
  rw [interleave_eq_tail none, interleaveAfter_append, hnone, List.append_nil,
    ← interleave_eq_tail]

theorem interleave_repeated {k : α} {ks : List α} (hk : isConnector k = true)
    (hks : ∀ k ∈ ks, isConnector k = true) (before behind : List α) :
    interleave isConnector fill (before ++ k :: (ks ++ behind)) =
      interleave isConnector fill (before ++ k :: behind) := by
  rw [interleave_eq_tail none, interleave_eq_tail none, interleaveAfter_append,
    interleaveAfter_append, interleaveAfter, interleaveAfter, if_pos hk, if_pos hk,
    interleaveAfter_connectors hks]
  cases pendingAfter isConnector none before <;> rfl

/-! ### Filters that compile as they stand -/

namespace Filter

mutual

/-- A filter as it stands, given the tokens of its comparisons: those and its connectors, with
parentheses around each group that is not empty. -/
def layout (tokens : Comparison → List Text) : Filter → List Text
  | .comparison c => tokens c
  | .connector symbol => [symbol]
  | .group [] => []
  | .group (f :: fs) => ("(" : Text) :: layoutAll tokens (f :: fs) ++ [(")" : Text)]

def layoutAll (tokens : Comparison → List Text) : List Filter → List Text
  | [] => []
  | f :: fs => layout tokens f ++ layoutAll tokens fs

end

end Filter

namespace Predicate

open Paging.Filter

variable {cfg : Config}

def tokensAlone (cfg : Config) (c : Comparison) : List Text :=
  (fragmentOf cfg (.comparison c)).predicate.tokens

mutual

/-- A well-formed filter in which every comparison is usable compiles as it stands. -/
theorem tokens_eq_layout {P : Comparison → Prop} : ∀ {f : Filter} {p : Predicate}, f.WellFormed P →
    (∀ c ∈ f.comparisons, c.Usable cfg) → ofFilter cfg f = .ok p →
      p.tokens = f.layout (tokensAlone cfg) ∧ p.tokens ≠ []
  | .comparison c, p, _, hu, h => by
    refine ⟨?_, (Comparison.takes_of_usable (hu c List.mem_cons_self) h).1⟩
    rw [layout, tokensAlone, fragmentOf, h]
  | .connector symbol, p, _, _, h => by
    cases h
    exact ⟨rfl, List.cons_ne_nil _ _⟩
  | .group [], _, hwf, _, _ => hwf.1.elim
  | .group (f :: fs), p, hwf, hu, h => by
    obtain ⟨rfl, hcompiled⟩ := ofFilter_group_eq_ok h
    obtain ⟨htokens, hkept⟩ := tokens_eq_layoutAll hwf.2 hu hcompiled
    rw [assemble_fragments, List.filter_eq_self.mpr hkept, interleave_eq_self hwf.1, layout,
      ← htokens]
    exact ⟨rfl, List.cons_ne_nil _ _⟩

theorem tokens_eq_layoutAll {P : Comparison → Prop} : ∀ {fs : List Filter}, AllWellFormed P fs →
    (∀ c ∈ comparisonsOf fs, c.Usable cfg) →
    (∀ f ∈ fs, ofFilter cfg f = .ok (fragmentOf cfg f).predicate) →
      (fs.map (fragmentOf cfg)).flatMap (fun fr => fr.predicate.tokens) =
        layoutAll (tokensAlone cfg) fs ∧ ∀ f ∈ fs, kept cfg f = true
  | [], _, _, _ => ⟨rfl, nofun⟩
  | f :: fs, hwf, hu, h => by
    obtain ⟨hf, hfs⟩ := List.forall_mem_cons.mp h
    obtain ⟨htokens, hne⟩ := tokens_eq_layout hwf.1
      (fun c hc => hu c (List.mem_append_left _ hc)) hf
    obtain ⟨hrest, hkept⟩ := tokens_eq_layoutAll hwf.2
      (fun c hc => hu c (List.mem_append_right _ hc)) hfs
    refine ⟨?_, List.forall_mem_cons.mpr ⟨by simpa [kept] using hne, hkept⟩⟩
    rw [List.map_cons, List.flatMap_cons, layoutAll, htokens, hrest]

end

/-- The filter that is read from a client compiles as it stands if every comparison in it is
usable. -/
theorem tokens_ofInput {config : Config} {raw : Value} {p : Predicate}
    (hu : ∀ c ∈ (Filter.ofInput config raw).comparisons, c.Usable cfg)
    (h : ofFilter cfg (Filter.ofInput config raw) = .ok p) :
    p.tokens = (Filter.ofInput config raw).layout (tokensAlone cfg) := by
  rw [ofInput_eq] at hu h ⊢
  rcases ofValue_wellFormed config (clientValue raw) with hempty | ⟨hwf, -⟩
  · rw [hempty] at h ⊢
    cases h
    rfl
  · exact (tokens_eq_layout hwf hu h).1

end Predicate

/-- The repair is canonical. For any list, and any connector to fill in, the repaired list is the
one that starts and ends with an operand, has the same operands in the same order, and between two
neighbours one connector: the first that the list has there, or the one that is filled in. Hence
repairing twice is repairing once; a list that is empty or in which operands and connectors take
turns stays as it is, and so the tokens of a filter that is read from a client, if every comparison
in it is usable, are those of its comparisons, its own connectors and parentheses; and connectors at
the ends or behind another connector make no difference. -/
theorem interleave_canonical (hfill : isConnector fill = true) (xs : List α) :
    (∀ ys, IsRepair isConnector fill xs ys ↔ ys = interleave isConnector fill xs) ∧
    interleave isConnector fill (interleave isConnector fill xs) =
      interleave isConnector fill xs ∧
    (xs = [] ∨ Alternates isConnector xs → interleave isConnector fill xs = xs) ∧
    (∀ lead trail, (∀ k ∈ lead ++ trail, isConnector k = true) →
      interleave isConnector fill (lead ++ xs ++ trail) = interleave isConnector fill xs) ∧
    (∀ before k ks behind, xs = before ++ k :: (ks ++ behind) →
      (∀ k' ∈ k :: ks, isConnector k' = true) →
      interleave isConnector fill xs = interleave isConnector fill (before ++ k :: behind)) ∧
    ∀ (config cfg : Config) (raw : Value) (p : Predicate),
      (∀ c ∈ (Filter.ofInput config raw).comparisons, c.Usable cfg) →
      Predicate.ofFilter cfg (Filter.ofInput config raw) = .ok p →
      p.tokens = (Filter.ofInput config raw).layout (Predicate.tokensAlone cfg) := by
  have hrepair := isRepair_interleave hfill xs
  have hself {ys : List α} (hys : ys = [] ∨ Alternates isConnector ys) :
      interleave isConnector fill ys = ys := by
    rcases hys with rfl | hys
    · rfl
    · exact interleave_eq_self hys
  refine ⟨fun ys => ⟨fun hys => hys.unique hfill hrepair, fun hys => hys ▸ hrepair⟩, hself ?_,
    hself, ?_, ?_, fun _ _ _ _ => Predicate.tokens_ofInput⟩
  · by_cases hnil : interleave isConnector fill xs = []
    · exact .inl hnil
    · exact .inr (alternates_interleave hfill hnil)
  · intro lead trail hends
    obtain ⟨hlead, htrail⟩ := List.forall_mem_append.mp hends
    rw [interleave_append_connectors htrail, interleave_connectors_append hlead]
  · rintro before k ks behind rfl hks
    obtain ⟨hk, hks⟩ := List.forall_mem_cons.mp hks
    exact interleave_repeated hk hks before behind

/-- Connectors at the ends, two in a row and one that is missing; and a filter with a range, whose
`AND` is no connector. -/
theorem interleave_canonical_gaps :
    let isConnector := fun s : Text => s == "AND" || s == "OR"
    let raw : Value := .list [.list [.text "a", .int 1], .list [.text "and"],
      .list [.text "b", .text "between", .list [.int 2, .int 3]], .list [.text "c", .int 4]]
    isConnector "OR" = true ∧
      (∀ ys : List Text,
        IsRepair isConnector "OR" ["AND", "a", "AND", "OR", "b", "c", "OR"] ys ↔
          ys = (["a", "AND", "b", "OR", "c"] : List Text)) ∧
      (∀ c ∈ (Filter.ofInput {} raw).comparisons, c.Usable {}) ∧
      ∀ p, Predicate.ofFilter {} (Filter.ofInput {} raw) = .ok p → p.tokens =
        (["(", "a", "=", "?", "AND", "(", "b", "BETWEEN", "?", "AND", "?", ")", "OR",
          "c", "=", "?", ")"] : List Text) := by
  intro isConnector raw
  have hfill : isConnector "OR" = true := rfl
  obtain ⟨hunique, -, -, -, -, hlayout⟩ :=
    interleave_canonical hfill ["AND", "a", "AND", "OR", "b", "c", "OR"]
  have hu : ∀ c ∈ (Filter.ofInput {} raw).comparisons, c.Usable {} := by decide
  exact ⟨hfill, hunique, hu, fun p hp => hlayout {} {} raw p hu hp⟩

end Paging
