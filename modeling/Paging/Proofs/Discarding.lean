import Paging.Proofs.Noninterference
import Paging.Proofs.Settled

/-! Comparisons that are dropped. The reader joins the operands of a list with connectors before it
is known which of them can be expressed, and the operands that cannot drop out when the filter is
compiled. -/
namespace Paging

open Paging.Filter

variable {cfg : Config}

namespace Filter

theorem exists_eq_connector {f : Filter} (h : f.isConnector = true) :
    ∃ symbol, f = .connector symbol := by
  cases f with
  | connector symbol => exact ⟨symbol, rfl⟩
  | comparison c => cases h
  | group children => cases h

/-- The group of some operands and connectors, empty if there is no operand. -/
def joined (cfg : Config) (fs : List Filter) : Filter :=
  .group (interleave isConnector (.connector cfg.operator.text) fs)

end Filter

/-! ### What a list of operands compiles to -/

namespace Predicate

def faults (cfg : Config) (f : Filter) : List Text.TemplateError :=
  match ofFilter cfg f with
  | .error e => [e]
  | .ok _ => []

/-- A filter as a part of a group, with nothing in it if it does not compile. -/
def fragmentOf (cfg : Config) (f : Filter) : Fragment :=
  ⟨f.isConnector, match ofFilter cfg f with
    | .error _ => {}
    | .ok p => p⟩

def checked {α : Type} (errors : List Text.TemplateError) (a : α) :
    Except Text.TemplateError α :=
  match errors with
  | [] => .ok a
  | e :: _ => .error e

def kept (cfg : Config) (f : Filter) : Bool := !(fragmentOf cfg f).predicate.tokens.isEmpty

theorem fragments_eq (cfg : Config) (fs : List Filter) :
    fragments cfg fs = checked (fs.flatMap (faults cfg)) (fs.map (fragmentOf cfg)) := by
  induction fs with
  | nil => rfl
  | cons f fs ih =>
    rw [fragments, ih, List.flatMap_cons, faults, List.map_cons, fragmentOf]
    cases ofFilter cfg f with
    | error e => rfl
    | ok p => cases fs.flatMap (faults cfg) <;> rfl

theorem fragments_eq_ok {fs : List Filter} {frs : List Fragment}
    (h : fragments cfg fs = .ok frs) : frs = fs.map (fragmentOf cfg) ∧
      ∀ f ∈ fs, ofFilter cfg f = .ok (fragmentOf cfg f).predicate := by
  rw [fragments_eq] at h
  cases hfaults : fs.flatMap (faults cfg) with
  | cons e errors =>
    rw [hfaults] at h
    cases h
  | nil =>
    rw [hfaults] at h
    refine ⟨(Except.ok.inj h).symm, fun f hf => ?_⟩
    have hnone := List.flatMap_eq_nil_iff.mp hfaults f hf
    rw [faults] at hnone
    rw [fragmentOf]
    cases hp : ofFilter cfg f with
    | error e =>
      rw [hp] at hnone
      cases hnone
    | ok p => rfl

theorem ofFilter_group_eq_ok {fs : List Filter} {p : Predicate}
    (h : ofFilter cfg (.group fs) = .ok p) : p = assemble cfg (fs.map (fragmentOf cfg)) ∧
      ∀ f ∈ fs, ofFilter cfg f = .ok (fragmentOf cfg f).predicate := by
  cases hfrs : fragments cfg fs with
  | error e =>
    rw [ofFilter, hfrs] at h
    cases h
  | ok frs =>
    obtain ⟨rfl, hcompiled⟩ := fragments_eq_ok hfrs
    rw [ofFilter, hfrs] at h
    exact ⟨(Except.ok.inj h).symm, hcompiled⟩

theorem keepsConnectors (cfg : Config) :
    KeepsConnectors isConnector (.connector cfg.operator.text) (kept cfg) where
  fill := rfl
  connector k hk := by
    obtain ⟨symbol, rfl⟩ := exists_eq_connector hk
    rfl

theorem interleave_fragments (cfg : Config) (fs : List Filter) :
    interleave Fragment.isConnector (connectorFragment cfg.operator.text)
        (fs.map (fragmentOf cfg)) =
      (interleave isConnector (.connector cfg.operator.text) fs).map (fragmentOf cfg) := by
  have hconnector (f : Filter) : (fragmentOf cfg f).isConnector = f.isConnector := rfl
  have hfill : connectorFragment cfg.operator.text =
      fragmentOf cfg (.connector cfg.operator.text) := rfl
  rw [hfill]
  exact interleave_map (fragmentOf cfg) hconnector fs

/-- Of the parts of a group those are repaired that something is left of. -/
theorem assemble_fragments (cfg : Config) (fs : List Filter) :
    assemble cfg (fs.map (fragmentOf cfg)) =
      enclose ((interleave isConnector (.connector cfg.operator.text)
        (fs.filter (kept cfg))).map (fragmentOf cfg)) := by
  rw [assemble, List.filter_map, interleave_fragments]
  rfl

theorem map_settled (cfg : Config) (fs : List Filter) :
    (settled isConnector (.connector cfg.operator.text) (kept cfg) fs).map (fragmentOf cfg) =
      settled Fragment.isConnector (connectorFragment cfg.operator.text)
        (fun fr => !fr.predicate.tokens.isEmpty) (fs.map (fragmentOf cfg)) := by
  rw [settled, settled, interleave_fragments, List.filter_map, interleave_fragments]
  rfl

/-- The group that is read from some operands and connectors compiles to those that are left of them
when they are repaired, compiled and repaired again. -/
theorem ofFilter_joined (cfg : Config) (fs : List Filter) :
    ofFilter cfg (joined cfg fs) =
      checked (fs.flatMap (faults cfg)) (enclose
        ((settled isConnector (.connector cfg.operator.text) (kept cfg) fs).map
          (fragmentOf cfg))) := by
  have hnone : ∀ f, isConnector f = true → faults cfg f = [] := by
    intro f hf
    obtain ⟨symbol, rfl⟩ := exists_eq_connector hf
    rfl
  rw [joined, ofFilter, fragments_eq, flatMap_interleave (faults cfg) hnone rfl]
  cases fs.flatMap (faults cfg) with
  | cons e errors => rfl
  | nil =>
    show Except.ok (assemble cfg _) = Except.ok _
    rw [assemble, map_settled, settled, interleave_fragments]

theorem enclose_append (pre post : List Fragment) (fr : Fragment) :
    enclose (pre ++ fr :: post) =
      ⟨("(" : Text) :: pre.flatMap (fun fr => fr.predicate.tokens) ++ fr.predicate.tokens ++
          (post.flatMap (fun fr => fr.predicate.tokens) ++ [(")" : Text)]),
        pre.flatMap (fun fr => fr.predicate.params) ++ fr.predicate.params ++
          post.flatMap (fun fr => fr.predicate.params)⟩ := by
  cases pre <;> simp [enclose]

/-- The first tokens are the second with the connector that is filled in in place of the other. -/
def Fills (cfg : Config) (ts ts' : List Text) : Prop :=
  ∃ pre k post, k ≠ cfg.operator ∧ ts = pre ++ cfg.operator.text :: post ∧
    ts' = pre ++ k.text :: post

theorem fills_connector {k : Connector} (h : k ≠ cfg.operator) :
    Fills cfg [cfg.operator.text] [k.text] :=
  ⟨[], k, [], h, rfl, rfl⟩

theorem Fills.append {ts ts' : List Text} (h : Fills cfg ts ts') (front back : List Text) :
    Fills cfg (front ++ ts ++ back) (front ++ ts' ++ back) := by
  obtain ⟨pre, k, post, hk, rfl, rfl⟩ := h
  exact ⟨front ++ pre, k, post ++ back, hk, by simp, by simp⟩

/-- Two outcomes that agree, or differ in one connector. -/
inductive Alike (cfg : Config) (overridden : Prop) :
    Except Text.TemplateError Predicate → Except Text.TemplateError Predicate → Prop
  | failed (e : Text.TemplateError) : Alike cfg overridden (.error e) (.error e)
  | equal (p : Predicate) : ¬ overridden → Alike cfg overridden (.ok p) (.ok p)
  | filled {p p' : Predicate} : overridden → Fills cfg p.tokens p'.tokens →
      p'.params = p.params → Alike cfg overridden (.ok p) (.ok p')

theorem Alike.refl {overridden : Prop} (h : ¬ overridden)
    (r : Except Text.TemplateError Predicate) : Alike cfg overridden r r := by
  cases r with
  | error e => exact .failed e
  | ok p => exact .equal p h

theorem Alike.of_empty {overridden : Prop} {r : Except Text.TemplateError Predicate}
    (h : Alike cfg overridden r (.ok {})) : ¬ overridden ∧ r = .ok {} := by
  cases h with
  | equal p hnot => exact ⟨hnot, rfl⟩
  | filled _ hfills _ =>
    obtain ⟨pre, k, post, -, -, hempty⟩ := hfills
    simp at hempty

theorem Alike.overridden_of_ne {overridden : Prop} {r r' : Except Text.TemplateError Predicate}
    (h : Alike cfg overridden r r') (hne : r ≠ r') : overridden := by
  cases h with
  | failed e => exact absurd rfl hne
  | equal p _ => exact absurd rfl hne
  | filled hover _ _ => exact hover

/-- Between some operands and connectors and some others an operand that drops out costs the client
a connector. The last of the former is an operand and kept, the first of the latter is a connector
other than the one that is filled in, and an operand behind it is kept. -/
def Overrides (cfg : Config) (L R : List Filter) : Prop :=
  ∃ k : Connector, k ≠ cfg.operator ∧
    Costs isConnector (kept cfg) L (.connector k.text) R

theorem connector_text_inj {k k' : Connector} (h : k.text = k'.text) : k = k' := by
  have hread := congrArg Connector.ofText? h
  simpa using hread

theorem exists_connector_of_leading {R : List Filter} (hR : ∀ f ∈ R, f.Canonical cfg.sqlDialect)
    {f : Filter} (h : leading isConnector R = some f) : ∃ k : Connector, f = .connector k.text := by
  cases R with
  | nil => cases h
  | cons g R =>
    rw [leading] at h
    split at h
    · rename_i hg
      cases h
      obtain ⟨symbol, rfl⟩ := exists_eq_connector hg
      obtain ⟨k, rfl⟩ := hR _ List.mem_cons_self
      exact ⟨k, rfl⟩
    · cases h

/-- An operand that nothing is left of makes no difference, or costs a connector. -/
theorem alike_discard {x : Filter} (hx : x.isConnector = false) (hdrop : ofFilter cfg x = .ok {})
    (L : List Filter) {R : List Filter} (hR : ∀ f ∈ R, f.Canonical cfg.sqlDialect) :
    Alike cfg (Overrides cfg L R)
      (ofFilter cfg (joined cfg (L ++ x :: R))) (ofFilter cfg (joined cfg (L ++ R))) := by
  have hfaults : faults cfg x = [] := by rw [faults, hdrop]
  have hkept : kept cfg x = false := by simp [kept, fragmentOf, hdrop]
  have hkeeps := keepsConnectors cfg
  rw [ofFilter_joined, ofFilter_joined, List.flatMap_append, List.flatMap_cons, hfaults,
    List.nil_append, ← List.flatMap_append]
  cases (L ++ R).flatMap (faults cfg) with
  | cons e errors => exact .failed e
  | nil =>
    by_cases hcosts : ∃ k, Costs isConnector (kept cfg) L k R
    · obtain ⟨f, hcosts⟩ := hcosts
      obtain ⟨pre, post, hwith, hwithout⟩ := settled_discard_of_costs hkeeps hx hkept hcosts
      obtain ⟨k, rfl⟩ := exists_connector_of_leading hR hcosts.head
      rw [hwith, hwithout]
      by_cases hk : k = cfg.operator
      · -- The connector that is lost is the one that is filled in.
        subst hk
        refine .refl ?_ _
        rintro ⟨k', hne, hcosts'⟩
        have hsame := hcosts.head.symm.trans hcosts'.head
        exact hne (connector_text_inj (by simpa using hsame)).symm
      · rw [List.map_append, List.map_cons, List.map_append, List.map_cons, enclose_append,
          enclose_append]
        exact .filled ⟨k, hk, hcosts⟩ ((fills_connector hk).append _ _) rfl
    · rw [settled_discard hkeeps hx hkept (not_exists.mp hcosts)]
      refine .refl ?_ _
      rintro ⟨k, -, hk⟩
      exact hcosts ⟨_, hk⟩

/-- Where operands are alike, the groups that they stand in are alike. -/
theorem alike_inside {overridden : Prop} {x x' : Filter} (hx : x.isConnector = false)
    (hx' : x'.isConnector = false)
    (h : Alike cfg overridden (ofFilter cfg x) (ofFilter cfg x')) (L R : List Filter) :
    Alike cfg overridden
      (ofFilter cfg (joined cfg (L ++ x :: R))) (ofFilter cfg (joined cfg (L ++ x' :: R))) := by
  rw [ofFilter_joined, ofFilter_joined, List.flatMap_append, List.flatMap_append,
    List.flatMap_cons, List.flatMap_cons]
  generalize hr : ofFilter cfg x = r at h
  generalize hr' : ofFilter cfg x' = r' at h
  cases h with
  | failed e =>
    rw [faults, faults, hr, hr']
    cases L.flatMap (faults cfg) with
    | nil => exact .failed e
    | cons e' errors => exact .failed e'
  | equal p hnot =>
    have hsame : fragmentOf cfg x = fragmentOf cfg x' := by
      simp [fragmentOf, hr, hr', hx, hx']
    have hmap : (L ++ x :: R).map (fragmentOf cfg) = (L ++ x' :: R).map (fragmentOf cfg) := by
      simp [hsame]
    rw [faults, faults, hr, hr', map_settled, map_settled, hmap]
    exact .refl hnot _
  | @filled p p' hover hfills hparams =>
    have hkept : kept cfg x = true ∧ kept cfg x' = true := by
      obtain ⟨pre, k, post, -, hp, hp'⟩ := hfills
      simp [kept, fragmentOf, hr, hr', hp, hp']
    obtain ⟨pre, post, hsettled⟩ := settled_kept (keepsConnectors cfg) L R
    have hpart : (fragmentOf cfg x).predicate = p ∧ (fragmentOf cfg x').predicate = p' := by
      simp [fragmentOf, hr, hr']
    rw [faults, faults, hr, hr', hsettled x hx hkept.1, hsettled x' hx' hkept.2, List.map_append,
      List.map_cons, List.map_append, List.map_cons, enclose_append, enclose_append, hpart.1,
      hpart.2]
    cases L.flatMap (faults cfg) ++ ([] ++ R.flatMap (faults cfg)) with
    | cons e errors => exact .failed e
    | nil =>
      refine .filled hover (hfills.append _ _) ?_
      rw [hparams]

end Predicate

namespace Filter

/-! ### What is read around a list -/

/-- A place for a list among other values. -/
structure Frame where
  before : List Value
  behind : List Value

namespace Frame

def fill (f : Frame) (ys : List Value) : List Value := f.before ++ .list ys :: f.behind

def isValue (f : Frame) : Bool :=
  match f.before.map Raw.isText, f.behind with
  | [true], [] => true
  | [true, true], [] => true
  | _, _ => false

/-- Is a list in this place an operand? It is none beside a column or behind an operator. -/
def isOperand (f : Frame) : Bool :=
  match f.before.map Raw.isText, f.behind with
  | [true], [] => false
  | [true], [_] => false
  | [true, _], [] => false
  | [_, true], [] => false
  | _, _ => true

def left (f : Frame) : List (List Value) := lists f.before

def right (f : Frame) : List (List Value) :=
  match f.before, f.behind.map Raw.isText with
  | [], [true, _] => []
  | _, _ => lists f.behind

end Frame

theorem lists_fill (f : Frame) (ys : List Value) :
    lists (f.fill ys) = lists f.before ++ ys :: lists f.behind := by
  simp [lists, Frame.fill]

theorem operands_fill {f : Frame} (hf : f.isOperand = true) (ys : List Value) :
    operands (f.fill ys) = f.left ++ ys :: f.right := by
  obtain ⟨before, behind⟩ := f
  have hlists := lists_fill ⟨before, behind⟩ ys
  have hitem : Raw.isText (.list ys) = false := rfl
  rw [Raw.operands_eq]
  match before, behind with
  | [], [] | [], [_] | [], _ :: _ :: _ :: _ | _ :: _ :: _ :: _, _ =>
    simpa [Frame.fill, Frame.left, Frame.right, hitem] using hlists
  | [], [a, b] =>
    cases ha : Raw.isText a <;>
      simp [Frame.fill, Frame.left, Frame.right, hitem, ha, lists]
  | [a], [] | [a], [_] | [a], _ :: _ :: _ =>
    cases ha : Raw.isText a <;>
      simp_all [Frame.fill, Frame.left, Frame.right, Frame.isOperand]
  | [a, b], [] | [a, b], _ :: _ =>
    cases ha : Raw.isText a <;> cases hb : Raw.isText b <;>
      simp_all [Frame.fill, Frame.left, Frame.right, Frame.isOperand]

/-- A list in another place is not looked at. -/
theorem operands_fill_congr {f : Frame} (hf : f.isOperand = false) (ys zs : List Value) :
    operands (f.fill ys) = operands (f.fill zs) := by
  obtain ⟨before, behind⟩ := f
  have hitem (ws : List Value) : Raw.isText (.list ws) = false := rfl
  rw [Raw.operands_eq, Raw.operands_eq]
  match before, behind with
  | [], [] | [], _ :: _ | _ :: _ :: _ :: _, _ => simp [Frame.isOperand] at hf
  | [a], [] | [a], [_] | [a], _ :: _ :: _ =>
    cases ha : Raw.isText a <;> simp_all [Frame.fill, Frame.isOperand]
  | [a, b], [] | [a, b], _ :: _ =>
    cases ha : Raw.isText a <;> cases hb : Raw.isText b <;>
      simp_all [Frame.fill, Frame.isOperand]

theorem leaf?_fill {f : Frame} (hf : f.isValue = false) (ys : List Value) :
    leaf? cfg (f.fill ys) = none := by
  obtain ⟨before, behind⟩ := f
  match before with
  | [] => exact leaf?_cons_eq_none rfl behind
  | [a] =>
    unfold leaf?
    split <;> simp_all [Frame.fill, Frame.isValue, Raw.isText]
  | [a, b] =>
    unfold leaf?
    split <;> simp_all [Frame.fill, Frame.isValue, Raw.isText]
  | a :: b :: c :: r =>
    unfold leaf?
    split <;> simp_all [Frame.fill]

theorem ofList?_fill {f : Frame} (hf : f.isOperand = true) (room : ℕ) (ys : List Value) :
    ofList? cfg (room + 1) (f.fill ys) =
      groupOf? cfg (f.left.filterMap (ofList? cfg room) ++ ((ofList? cfg room ys).toList ++
        f.right.filterMap (ofList? cfg room))) := by
  have hoperands := operands_fill hf ys
  have hleaf : leaf? cfg (f.fill ys) = none := leaf?_eq_none (by simp [hoperands])
  have hchildren : (operands (f.fill ys)).filterMap (ofList? cfg room) =
      f.left.filterMap (ofList? cfg room) ++ ((ofList? cfg room ys).toList ++
        f.right.filterMap (ofList? cfg room)) := by
    rw [hoperands, List.filterMap_append, List.filterMap_cons]
    cases ofList? cfg room ys <;> rfl
  rw [ofList?, hchildren, hleaf]
  split
  · rename_i hnil
    rw [hnil]
    rfl
  · rfl

theorem ofList?_fill_congr {f : Frame} (hf : f.isOperand = false) (hvalue : f.isValue = false)
    (room : ℕ) (ys zs : List Value) :
    ofList? cfg room (f.fill ys) = ofList? cfg room (f.fill zs) := by
  cases room with
  | zero => rfl
  | succ room =>
    rw [ofList?, ofList?, operands_fill_congr hf ys zs, leaf?_fill hvalue, leaf?_fill hvalue]

/-! ### A comparison that is dropped -/

inductive Related (cfg : Config) (overridden : Prop) : Option Filter → Option Filter → Prop
  | same (o : Option Filter) : ¬ overridden → Related cfg overridden o o
  /-- With the comparison an operand of which nothing is left, without it nothing. -/
  | gone {x : Filter} : ¬ overridden → x.isConnector = false →
      Predicate.ofFilter cfg x = .ok {} → Related cfg overridden (some x) none
  | alike {x x' : Filter} : x.isConnector = false → x'.isConnector = false →
      Predicate.Alike cfg overridden (Predicate.ofFilter cfg x) (Predicate.ofFilter cfg x') →
      Related cfg overridden (some x) (some x')

theorem interleave_ne_nil {x : Filter} (hx : x.isConnector = false) {fill : Filter}
    {fs : List Filter} (h : x ∈ fs) : interleave isConnector fill fs ≠ [] := by
  induction fs with
  | nil => cases h
  | cons f fs ih =>
    rw [interleave]
    split
    · rename_i hf
      refine ih ((List.mem_cons.mp h).resolve_left ?_)
      rintro rfl
      rw [hf] at hx
      cases hx
    · exact List.cons_ne_nil _ _

theorem groupOf?_of_operand (cfg : Config) {x : Filter} (hx : x.isConnector = false)
    (L R : List Filter) : groupOf? cfg (L ++ x :: R) = some (joined cfg (L ++ x :: R)) := by
  have hne : interleave isConnector (.connector cfg.operator.text) (L ++ x :: R) ≠ [] :=
    interleave_ne_nil hx (by simp)
  rw [groupOf?, joined]
  cases hs : interleave isConnector (.connector cfg.operator.text) (L ++ x :: R) with
  | nil => exact absurd hs hne
  | cons f fs => rfl

theorem joined_of_groupOf? {fs : List Filter} (h : groupOf? cfg fs = none) :
    joined cfg fs = .empty := by
  rw [groupOf?] at h
  rw [joined]
  cases hs : interleave isConnector (.connector cfg.operator.text) fs with
  | nil => rfl
  | cons f fs => simp [hs] at h

theorem Related.groupOf? {overridden : Prop} {o o' : Option Filter}
    (h : Related cfg overridden o o') (L : List Filter) {R : List Filter}
    (hR : ∀ f ∈ R, f.Canonical cfg.sqlDialect) :
    Related cfg (overridden ∨ o.isSome = true ∧ o' = none ∧ Predicate.Overrides cfg L R)
      (groupOf? cfg (L ++ (o.toList ++ R))) (groupOf? cfg (L ++ (o'.toList ++ R))) := by
  cases h with
  | same o hnot =>
    refine .same _ ?_
    rintro (hover | ⟨hsome, hnone, -⟩)
    · exact hnot hover
    · rw [hnone] at hsome
      cases hsome
  | @gone x hnot hx hdrop =>
    have halike := Predicate.alike_discard hx hdrop L hR
    have hwith := groupOf?_of_operand cfg hx L R
    have hcond : (overridden ∨ (some x).isSome = true ∧ (none : Option Filter) = none ∧
        Predicate.Overrides cfg L R) ↔ Predicate.Overrides cfg L R := by
      simp [hnot]
    rw [propext hcond]
    simp only [Option.toList_some, Option.toList_none, List.singleton_append, List.nil_append]
    rw [hwith]
    cases hgroup : Filter.groupOf? cfg (L ++ R) with
    | none =>
      rw [joined_of_groupOf? hgroup] at halike
      obtain ⟨hover, hempty⟩ := halike.of_empty
      exact .gone hover rfl hempty
    | some g =>
      rw [eq_group_of_groupOf? hgroup]
      exact .alike rfl rfl halike
  | @alike x x' hx hx' halike =>
    have hcond : (overridden ∨ (some x).isSome = true ∧ (some x') = none ∧
        Predicate.Overrides cfg L R) ↔ overridden := by
      simp
    rw [propext hcond]
    simp only [Option.toList_some, List.singleton_append]
    rw [groupOf?_of_operand cfg hx, groupOf?_of_operand cfg hx']
    exact .alike rfl rfl (Predicate.alike_inside hx hx' halike L R)

/-- A list in the innermost of some places, one in the other from the outside in. -/
def place (path : List Frame) (ys : List Value) : List Value := path.foldr Frame.fill ys

theorem place_cons (f : Frame) (path : List Frame) (ys : List Value) :
    place (f :: path) ys = f.fill (place path ys) := rfl

def IsComparison (xs : List Value) : Prop :=
  ∃ column v, xs = [.text column, v] ∨ ∃ op, xs = [.text column, op, v]

/-- Does dropping the comparison `xs` cost the client a connector? In one of the lists around it,
which are read where there is room, the operand that it stands in is read, but not without it, and
its neighbours there have a connector behind it only. -/
def Overridden (cfg : Config) (xs : List Value) : ℕ → List Frame → Prop
  | room + 1, f :: path =>
    f.isOperand = true ∧ (Overridden cfg xs room path ∨
      (ofList? cfg room (place path xs)).isSome = true ∧ ofList? cfg room (place path []) = none ∧
        Predicate.Overrides cfg (f.left.filterMap (ofList? cfg room))
          (f.right.filterMap (ofList? cfg room)))
  | _, _ => False

theorem ofList?_nil (cfg : Config) (room : ℕ) : ofList? cfg room [] = none := by
  cases room <;> rfl

theorem IsComparison.operands_eq {xs : List Value} (h : IsComparison xs) : operands xs = [] := by
  obtain ⟨column, v, rfl | ⟨op, rfl⟩⟩ := h
  · rfl
  · cases op <;> rfl

theorem IsComparison.ofList?_succ {xs : List Value} (h : IsComparison xs) (room : ℕ) :
    ofList? cfg (room + 1) xs = Filter.leaf? cfg xs := by
  rw [ofList?, h.operands_eq]
  rfl

theorem IsComparison.leaf? {xs : List Value} (h : IsComparison xs) {f : Filter}
    (hf : Filter.leaf? cfg xs = some f) : f.isConnector = false := by
  unfold Filter.leaf? at hf
  split at hf
  · obtain ⟨column, v, h | ⟨op, h⟩⟩ := h <;> simp at h
  · split at hf
    · cases hf
    · cases hf
      rfl
  · split at hf
    · cases hf
    · obtain ⟨s, -, rfl⟩ := Option.map_eq_some_iff.mp hf
      rfl
  · cases hf

theorem ofValue_of_operand {xs : List Value} {f : Filter} (hf : f.isConnector = false)
    (h : ofList? cfg (maxDepth + 1) xs = some f) : ofValue cfg (.list xs) = f := by
  rw [ofValue, h]
  cases f with
  | connector symbol => cases hf
  | comparison c => rfl
  | group children => rfl

theorem related_comparison {xs : List Value} (hxs : IsComparison xs)
    (hdrop : Predicate.ofFilter cfg (ofValue cfg (.list xs)) = .ok {}) (room : ℕ) :
    Related cfg False (ofList? cfg room xs) (ofList? cfg room []) := by
  rw [ofList?_nil]
  cases room with
  | zero => exact .same none id
  | succ room =>
    rw [hxs.ofList?_succ]
    cases hleaf : Filter.leaf? cfg xs with
    | none => exact .same none id
    | some f =>
      have hf := hxs.leaf? hleaf
      rw [ofValue_of_operand hf ((hxs.ofList?_succ maxDepth).trans hleaf)] at hdrop
      exact .gone id hf hdrop

/-- Along the lists around a comparison that is dropped. -/
theorem related_place {xs : List Value} (hxs : IsComparison xs)
    (hdrop : Predicate.ofFilter cfg (ofValue cfg (.list xs)) = .ok {}) {path : List Frame}
    (hpath : ∀ f ∈ path, f.isValue = false) (room : ℕ) :
    Related cfg (Overridden cfg xs room path) (ofList? cfg room (place path xs))
      (ofList? cfg room (place path [])) := by
  induction path generalizing room with
  | nil =>
    have hnot : Overridden cfg xs room [] ↔ False := by
      cases room <;> simp [Overridden]
    rw [propext hnot]
    exact related_comparison hxs hdrop room
  | cons f path ih =>
    obtain ⟨hf, hpath⟩ := List.forall_mem_cons.mp hpath
    cases room with
    | zero => exact .same none id
    | succ room =>
      rw [place_cons, place_cons]
      by_cases hoperand : f.isOperand = true
      · have hright : ∀ g ∈ f.right.filterMap (ofList? cfg room), g.Canonical cfg.sqlDialect := by
          intro g hg
          obtain ⟨ys, -, hys⟩ := List.mem_filterMap.mp hg
          exact canonical_of_ofList? hys
        have hstep := (ih hpath room).groupOf? (f.left.filterMap (ofList? cfg room)) hright
        rw [Overridden, ofList?_fill hoperand, ofList?_fill hoperand]
        simpa only [hoperand, true_and] using hstep
      · have hunread : f.isOperand = false := by simpa using hoperand
        rw [ofList?_fill_congr hunread hf (room + 1) (place path xs) (place path [])]
        refine .same _ ?_
        rw [Overridden, hunread]
        simp

theorem Related.ofValue {overridden : Prop} {xs ys : List Value}
    (h : Related cfg overridden (ofList? cfg (maxDepth + 1) xs) (ofList? cfg (maxDepth + 1) ys)) :
    Predicate.Alike cfg overridden (Predicate.ofFilter cfg (ofValue cfg (.list xs)))
      (Predicate.ofFilter cfg (ofValue cfg (.list ys))) := by
  generalize hxs : ofList? cfg (maxDepth + 1) xs = o at h
  generalize hys : ofList? cfg (maxDepth + 1) ys = o' at h
  cases h with
  | same o hnot =>
    rw [Filter.ofValue, Filter.ofValue, hxs, hys]
    exact .refl hnot _
  | gone hnot hx hdrop =>
    rw [ofValue_of_operand hx hxs, hdrop, Filter.ofValue, hys]
    exact .equal _ hnot
  | alike hx hx' halike =>
    rw [ofValue_of_operand hx hxs, ofValue_of_operand hx' hys]
    exact halike

/-- A comparison that is dropped leaves no trace but where it costs the client a connector. With it
and with an empty list in its place a filter compiles to the same tokens and parameters, unless in
a list around it the connector in front of it was filled in and the client's own stands behind it:
then the former is kept in place of the latter, and nothing else is changed. -/
theorem dropped_leaves_no_trace (cfg : Config) {xs : List Value} (hxs : IsComparison xs)
    (hdrop : Predicate.ofFilter cfg (ofValue cfg (.list xs)) = .ok {}) {path : List Frame}
    (hpath : ∀ f ∈ path, f.isValue = false) :
    Predicate.Alike cfg (Overridden cfg xs (maxDepth + 1) path)
      (Predicate.ofFilter cfg (ofValue cfg (.list (place path xs))))
      (Predicate.ofFilter cfg (ofValue cfg (.list (place path [])))) :=
  (related_place hxs hdrop hpath (maxDepth + 1)).ofValue

def joinedByAnd : List Frame :=
  [⟨[.list [.text "a", .int 1]], [.list [.text "AND"], .list [.text "c", .int 2]]⟩]

def oneBound : List Value := [.text "b", .text "between", .int 1]

theorem oneBound_compiled :
    Predicate.ofFilter {} (ofValue {} (.list oneBound)) = .ok {} ∧
      Predicate.ofFilter {} (ofValue {} (.list (place joinedByAnd oneBound))) =
        .ok ⟨["(", "a", "=", "?", "OR", "c", "=", "?", ")"], [.int 1, .int 2]⟩ ∧
      Predicate.ofFilter {} (ofValue {} (.list (place joinedByAnd []))) =
        .ok ⟨["(", "a", "=", "?", "AND", "c", "=", "?", ")"], [.int 1, .int 2]⟩ :=
  ⟨rfl, rfl, rfl⟩

/-- A range with one bound, between two comparisons that a client joined by `AND`. -/
theorem dropped_leaves_no_trace_between :
    IsComparison oneBound ∧ Predicate.ofFilter {} (ofValue {} (.list oneBound)) = .ok {} ∧
      (∀ f ∈ joinedByAnd, f.isValue = false) ∧
      Predicate.ofFilter {} (ofValue {} (.list (place joinedByAnd oneBound))) =
        .ok ⟨["(", "a", "=", "?", "OR", "c", "=", "?", ")"], [.int 1, .int 2]⟩ ∧
      Predicate.ofFilter {} (ofValue {} (.list (place joinedByAnd []))) =
        .ok ⟨["(", "a", "=", "?", "AND", "c", "=", "?", ")"], [.int 1, .int 2]⟩ ∧
      Overridden {} oneBound (maxDepth + 1) joinedByAnd := by
  have hxs : IsComparison oneBound := ⟨"b", .int 1, .inr ⟨.text "between", rfl⟩⟩
  have hpath : ∀ f ∈ joinedByAnd, f.isValue = false := by
    simp [joinedByAnd, Frame.isValue, Raw.isText]
  obtain ⟨hdrop, hwith, hwithout⟩ := oneBound_compiled
  have halike := dropped_leaves_no_trace {} hxs hdrop hpath
  refine ⟨hxs, hdrop, hpath, hwith, hwithout, halike.overridden_of_ne ?_⟩
  rw [hwith, hwithout]
  simp

end Filter

end Paging
