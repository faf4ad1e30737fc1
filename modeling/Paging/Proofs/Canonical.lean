import Mathlib.Data.List.Forall2
import Paging.Filter.Reader
import Paging.Proofs.Atom
import Paging.Proofs.Interleave

/-! Filters in the library's own words: every comparison has an operator and a suffix that
a predicate can hold, every connector is one of the two. Whatever is read from a client is
such a filter, and every such filter compiles; `Compositional.ofFilter` is the induction
along which its predicate is put together. -/
namespace Paging
namespace Filter

mutual

/-- Comparisons are canonical and connectors are those of a predicate, at every depth. -/
def Canonical (d : Dialect) : Filter → Prop
  | .comparison c => c.Canonical d
  | .connector symbol => ∃ k : Connector, symbol = k.text
  | .group children => CanonicalList d children

def CanonicalList (d : Dialect) : List Filter → Prop
  | [] => True
  | f :: fs => f.Canonical d ∧ CanonicalList d fs

end

theorem canonicalList_iff {d : Dialect} {fs : List Filter} :
    CanonicalList d fs ↔ ∀ f ∈ fs, f.Canonical d := by
  induction fs with
  | nil => simp [CanonicalList]
  | cons f fs ih => simp [CanonicalList, ih]

theorem comparisonsOf_eq_flatMap (fs : List Filter) :
    comparisonsOf fs = fs.flatMap comparisons := by
  induction fs with
  | nil => rfl
  | cons f fs ih => rw [comparisonsOf, ih, List.flatMap_cons]

theorem comparisons_of_isConnector {f : Filter} (h : f.isConnector = true) :
    f.comparisons = [] := by
  cases f with
  | connector symbol => rfl
  | comparison c => simp [isConnector] at h
  | group children => simp [isConnector] at h

/-! ### What is read from a client -/

theorem canonical_spelled (cfg : Config) (column : Text) (s : Spelling) (v : Value) :
    (spelled cfg column s v).Canonical cfg.sqlDialect := by
  cases s with
  | comparison o => exact ⟨⟨o, rfl⟩, Or.inl rfl⟩
  | pattern word a => exact ⟨⟨a.operator, rfl⟩, Or.inr rfl⟩

theorem canonical_of_leaf? {cfg : Config} {xs : List Value} {f : Filter}
    (h : leaf? cfg xs = some f) : f.Canonical cfg.sqlDialect := by
  unfold leaf? at h
  split at h
  · obtain ⟨k, -, rfl⟩ := Option.map_eq_some_iff.mp h
    exact ⟨k, rfl⟩
  · split at h
    · cases h
    · cases h
      exact ⟨⟨_, rfl⟩, Or.inl rfl⟩
  · split at h
    · cases h
    · obtain ⟨s, -, rfl⟩ := Option.map_eq_some_iff.mp h
      exact canonical_spelled cfg _ s _
  · cases h

theorem eq_group_of_groupOf? {cfg : Config} {children : List Filter} {f : Filter}
    (h : groupOf? cfg children = some f) :
    f = .group (interleave isConnector (.connector cfg.operator.text) children) := by
  rw [groupOf?] at h
  cases hs : interleave isConnector (.connector cfg.operator.text) children with
  | nil => simp [hs] at h
  | cons g gs => simpa [hs] using h.symm

theorem canonical_of_groupOf? {cfg : Config} {children : List Filter} {f : Filter}
    (hc : ∀ g ∈ children, g.Canonical cfg.sqlDialect) (h : groupOf? cfg children = some f) :
    f.Canonical cfg.sqlDialect := by
  rw [eq_group_of_groupOf? h, Canonical, canonicalList_iff]
  intro g hg
  rcases mem_interleave hg with hg | rfl
  · exact hc g hg
  · exact ⟨cfg.operator, rfl⟩

theorem canonical_of_ofList? {cfg : Config} {room : Nat} {xs : List Value} {f : Filter}
    (h : ofList? cfg room xs = some f) : f.Canonical cfg.sqlDialect := by
  induction room generalizing xs f with
  | zero => simp [ofList?] at h
  | succ room ih =>
    rw [ofList?] at h
    split at h
    · exact canonical_of_leaf? h
    · refine canonical_of_groupOf? ?_ h
      intro g hg
      obtain ⟨ys, -, hys⟩ := List.mem_filterMap.mp hg
      exact ih hys

/-- Whatever a decoded value holds, the filter that is read from it is canonical. -/
theorem canonical_ofValue (cfg : Config) (v : Value) :
    (ofValue cfg v).Canonical cfg.sqlDialect := by
  unfold ofValue
  split
  · split
    · trivial
    · rename_i hf
      exact canonical_of_ofList? hf
    · trivial
  · trivial

theorem isConnector_ofValue (cfg : Config) (v : Value) : (ofValue cfg v).isConnector = false := by
  unfold ofValue
  split
  · split
    · rfl
    · rename_i f hf _
      cases f with
      | connector s => simp_all
      | comparison c => rfl
      | group children => rfl
    · rfl
  · rfl

/-- The value that a client's filter stands for: what its JSON text holds, or the value itself. -/
def clientValue (raw : Value) : Value :=
  match raw with
  | .text _ | .bytes _ => if isBlankInput raw then .null else (decode raw).toOption.getD .null
  | v => v

theorem ofInput_eq (cfg : Config) (raw : Value) :
    ofInput cfg raw = ofValue cfg (clientValue raw) := by
  have hj (v : Value) :
      (ofJson cfg v).toOption.getD empty = ofValue cfg ((decode v).toOption.getD .null) := by
    rw [ofJson]
    cases decode v <;> rfl
  have hsent (v : Value) : (if isBlankInput v then empty else (ofJson cfg v).toOption.getD empty) =
      ofValue cfg (if isBlankInput v then .null else (decode v).toOption.getD .null) := by
    split
    · rfl
    · exact hj v
  cases raw with
  | text s => exact hsent (.text s)
  | bytes b => exact hsent (.bytes b)
  | _ => rfl

/-! ### The order of a client's comparisons -/

def writtenIn (cfg : Config) : Nat → List Value → List Comparison
  | 0, _ => []
  | room + 1, xs =>
    ((leaf? cfg xs).map comparisons).getD [] ++ (operands xs).flatMap (writtenIn cfg room)

/-- The comparisons that a decoded value writes, from left to right. -/
def written (cfg : Config) : Value → List Comparison
  | .list xs => writtenIn cfg (maxDepth + 1) xs
  | _ => []

theorem leaf?_eq_none {cfg : Config} {xs : List Value} (h : operands xs ≠ []) :
    leaf? cfg xs = none := by
  unfold leaf?
  split
  · exact absurd rfl h
  · exact absurd rfl h
  · exact absurd rfl h
  · rfl

theorem comparisons_groupOf? (cfg : Config) (children : List Filter) :
    ((groupOf? cfg children).map comparisons).getD [] = children.flatMap comparisons := by
  have hflat : (interleave isConnector (.connector cfg.operator.text) children).flatMap
      comparisons = children.flatMap comparisons :=
    flatMap_interleave comparisons (fun _ => comparisons_of_isConnector) rfl children
  rw [groupOf?]
  split
  · rename_i hnil
    rw [← hflat, hnil]
    rfl
  · rename_i hs
    rw [← hflat, ← comparisonsOf_eq_flatMap]
    rfl

/-- Reading keeps the order in which the comparisons were written, whatever their nesting. -/
theorem comparisons_ofList? (cfg : Config) (room : Nat) (xs : List Value) :
    ((ofList? cfg room xs).map comparisons).getD [] = writtenIn cfg room xs := by
  induction room generalizing xs with
  | zero => rfl
  | succ room ih =>
    have hchildren (yss : List (List Value)) :
        (yss.filterMap (ofList? cfg room)).flatMap comparisons =
          yss.flatMap (writtenIn cfg room) := by
      induction yss with
      | nil => rfl
      | cons ys yss ihs =>
        rw [List.flatMap_cons, ← ih ys, ← ihs]
        cases h : ofList? cfg room ys <;> simp [h]
    rw [writtenIn, ← hchildren, ofList?]
    split
    · rename_i hnil
      rw [hnil, List.flatMap_nil, List.append_nil]
    · rename_i hne
      have hoperands : operands xs ≠ [] := fun e => hne (by simp [e])
      rw [comparisons_groupOf?, leaf?_eq_none hoperands]
      rfl

theorem comparisons_ofValue (cfg : Config) (v : Value) :
    (ofValue cfg v).comparisons = written cfg v := by
  cases v with
  | list xs =>
    rw [written, ← comparisons_ofList?, ofValue]
    split <;> rename_i h <;> rw [h] <;> rfl
  | _ => rfl

end Filter

/-! ### What is compiled -/

namespace Predicate

structure Compiled (R : Filter → Predicate → Prop) (f : Filter) (fr : Fragment) : Prop where
  isConnector : fr.isConnector = f.isConnector
  result : R f fr.predicate

/-- A relation between filters and their predicates that holds of comparisons and connectors
and passes from the parts of a group to the group. -/
structure Compositional (cfg : Config) (R : Filter → Predicate → Prop) : Prop where
  comparison : ∀ c : Comparison, c.Canonical cfg.sqlDialect →
    ∃ p, c.predicateOrEmpty cfg = .ok p ∧ R (.comparison c) p
  connector : ∀ k : Connector, R (.connector k.text) ⟨[k.text], []⟩
  group : ∀ fs frs, List.Forall₂ (Compiled R) fs frs → R (.group fs) (assemble cfg frs)

mutual

/-- Canonical filters compile, and a compositional relation holds of each and its predicate. -/
theorem Compositional.ofFilter {cfg : Config} {R : Filter → Predicate → Prop}
    (hR : Compositional cfg R) : ∀ f : Filter, f.Canonical cfg.sqlDialect →
      ∃ p, Predicate.ofFilter cfg f = .ok p ∧ R f p
  | .comparison c, h => hR.comparison c h
  | .connector symbol, h => by
    obtain ⟨k, rfl⟩ := h
    exact ⟨_, rfl, hR.connector k⟩
  | .group children, h => by
    obtain ⟨frs, hfrs, hall⟩ := hR.fragments children h
    refine ⟨assemble cfg frs, ?_, hR.group children frs hall⟩
    simp [Predicate.ofFilter, hfrs, bind, Except.bind, pure, Except.pure]

theorem Compositional.fragments {cfg : Config} {R : Filter → Predicate → Prop}
    (hR : Compositional cfg R) : ∀ fs : List Filter, Filter.CanonicalList cfg.sqlDialect fs →
      ∃ frs, Predicate.fragments cfg fs = .ok frs ∧ List.Forall₂ (Compiled R) fs frs
  | [], _ => ⟨[], rfl, .nil⟩
  | f :: fs, h => by
    obtain ⟨p, hp, hf⟩ := hR.ofFilter f h.1
    obtain ⟨frs, hfrs, hall⟩ := hR.fragments fs h.2
    refine ⟨⟨f.isConnector, p⟩ :: frs, ?_, .cons ⟨rfl, hf⟩ hall⟩
    simp [Predicate.fragments, hp, hfrs, bind, Except.bind, pure, Except.pure]

end

section

variable {cfg : Config} {pending : Option Fragment} {fr : Fragment} {frs : List Fragment}

def repaired (cfg : Config) (pending : Option Fragment) (frs : List Fragment) : List Fragment :=
  interleaveAfter Fragment.isConnector (connectorFragment cfg.operator.text) pending
    (frs.filter fun fr => !fr.predicate.tokens.isEmpty)

theorem assemble_eq (pending : Option Fragment) :
    assemble cfg frs = enclose (repaired cfg pending frs).tail := by
  rw [assemble, interleave_eq_tail pending, repaired]

theorem repaired_empty (h : fr.predicate.tokens = []) :
    repaired cfg pending (fr :: frs) = repaired cfg pending frs := by
  rw [repaired, List.filter_cons_of_neg (by simp [h]), repaired]

theorem repaired_connector (hc : fr.isConnector = true) (h : fr.predicate.tokens ≠ []) :
    repaired cfg pending (fr :: frs) = repaired cfg (pending.or (some fr)) frs := by
  rw [repaired, List.filter_cons_of_pos (by simpa using h), interleaveAfter, if_pos hc, repaired]

theorem repaired_operand (hc : fr.isConnector = false) (h : fr.predicate.tokens ≠ []) :
    repaired cfg pending (fr :: frs) =
      pending.getD (connectorFragment cfg.operator.text) :: fr :: repaired cfg none frs := by
  have hnot : ¬ fr.isConnector = true := by simp [hc]
  rw [repaired, List.filter_cons_of_pos (by simpa using h), interleaveAfter, if_neg hnot, repaired]

end

end Predicate
end Paging
