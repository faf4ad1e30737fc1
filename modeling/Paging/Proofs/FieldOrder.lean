import Paging.Proofs.JsonValue
import Paging.Query

/-! Values up to the order of fields. Compiling a filter does not heed that order: what it
makes of two filters that differ in nothing else differs in nothing else. -/
namespace Paging

namespace Value

/-- The names of two fields in the order in which they are sorted. -/
def byName {α : Type} (a b : Text × α) : Bool := !(decide (b.1 < a.1))

theorem byName_iff {α : Type} {a b : Text × α} :
    byName a b = true ↔ List.le a.1.codes b.1.codes := by
  rw [byName, Bool.not_eq_true', decide_eq_false_iff_not]
  exact List.not_lt

mutual

/-- The value with the fields of every object sorted by name. Two values differ only in the order
of fields if this is the same of both. -/
def ordered : Value → Value
  | .list xs => .list (orderedList xs)
  | .tuple xs => .tuple (orderedList xs)
  | .object fields => .object ((orderedFields fields).mergeSort byName)
  | v => v

def orderedList : List Value → List Value
  | [] => []
  | x :: xs => ordered x :: orderedList xs

def orderedFields : List (Text × Value) → List (Text × Value)
  | [] => []
  | (k, x) :: r => (k, ordered x) :: orderedFields r

end

theorem orderedList_eq_map (xs : List Value) : orderedList xs = xs.map ordered := by
  induction xs with
  | nil => rfl
  | cons x xs ih => rw [orderedList, ih, List.map_cons]

theorem orderedFields_eq_map (fields : Fields) :
    orderedFields fields = fields.map fun f => (f.1, f.2.ordered) := by
  induction fields with
  | nil => rfl
  | cons f r ih => rw [orderedFields, ih, List.map_cons]

theorem map_fst_orderedFields (fields : Fields) :
    (orderedFields fields).map Prod.fst = fields.map Prod.fst := by
  rw [orderedFields_eq_map, List.map_map]
  rfl

theorem isJsonFields_perm {f g : Fields} (h : f.Perm g) (hf : IsJsonFields f) :
    IsJsonFields g := by
  rw [isJsonFields_iff] at hf ⊢
  intro x hx
  exact hf x (h.mem_iff.mpr hx)

mutual

theorem IsJson.ordered : ∀ {v : Value}, v.IsJson → v.ordered.IsJson
  | .null, _ | .bool _, _ | .int _, _ | .float _, _ | .text _, _ => trivial
  | .list _, h => isJsonList_ordered h
  | .object _, h => isJsonFields_perm (List.mergeSort_perm _ _).symm (isJsonFields_ordered h)

theorem isJsonList_ordered : ∀ {xs : List Value}, IsJsonList xs → IsJsonList (orderedList xs)
  | [], _ => trivial
  | _ :: _, h => ⟨h.1.ordered, isJsonList_ordered h.2⟩

theorem isJsonFields_ordered : ∀ {fields : Fields}, IsJsonFields fields →
    IsJsonFields (orderedFields fields)
  | [], _ => trivial
  | _ :: _, h => ⟨h.1.ordered, isJsonFields_ordered h.2⟩

end

/-- Without repeated names the order does not matter to look-ups. -/
theorem lookup_perm {α : Type} {f g : List (Text × α)} (h : f.Perm g)
    (hf : (f.map Prod.fst).Nodup) (name : Text) : f.lookup name = g.lookup name := by
  induction h with
  | nil => rfl
  | cons x _ ih =>
    rw [List.lookup_cons, List.lookup_cons, ih (List.nodup_cons.mp hf).2]
  | swap x y l =>
    obtain ⟨a, v⟩ := x
    obtain ⟨b, w⟩ := y
    have hne : b ≠ a := by
      have hnot := (List.nodup_cons.mp hf).1
      exact fun e => hnot (by simp [e])
    simp only [List.lookup_cons]
    by_cases ha : name = a
    · have hb : (name == b) = false := by simpa [ha] using hne.symm
      rw [hb]
    · have ha' : (name == a) = false := by simpa using ha
      rw [ha']
  | trans h₁ _ ih₁ ih₂ =>
    rw [ih₁ hf, ih₂ ((h₁.map Prod.fst).nodup_iff.mp hf)]

theorem lookup_orderedFields (fields : Fields) (name : Text) :
    (orderedFields fields).lookup name = (fields.lookup name).map ordered := by
  induction fields with
  | nil => rfl
  | cons f r ih =>
    obtain ⟨k, x⟩ := f
    rw [orderedFields, List.lookup_cons, List.lookup_cons, ih]
    cases name == k <;> rfl

theorem lookup_of_ordered_eq {f g : Fields} (hf : (f.map Prod.fst).Nodup)
    (h : (Value.object f).ordered = (Value.object g).ordered) (name : Text) :
    (f.lookup name).map ordered = (g.lookup name).map ordered := by
  have hsorted : (orderedFields f).mergeSort byName = (orderedFields g).mergeSort byName :=
    Value.object.inj h
  have hf' := List.mergeSort_perm (orderedFields f) byName
  have hg' := List.mergeSort_perm (orderedFields g) byName
  have hperm : (orderedFields f).Perm (orderedFields g) := hf'.symm.trans (hsorted ▸ hg')
  have hnodup : ((orderedFields f).map Prod.fst).Nodup := by rwa [map_fst_orderedFields]
  rw [← lookup_orderedFields, ← lookup_orderedFields, lookup_perm hperm hnodup]

theorem eq_of_fst_eq {f : Fields} (hf : (f.map Prod.fst).Nodup) :
    ∀ {a b : Text × Value}, a ∈ f → b ∈ f → a.1 = b.1 → a = b := by
  induction f with
  | nil => exact fun ha => nomatch ha
  | cons x r ih =>
    intro a b ha hb he
    obtain ⟨hx, hr⟩ := List.nodup_cons.mp hf
    rcases List.mem_cons.mp ha with ha' | ha' <;> rcases List.mem_cons.mp hb with hb' | hb'
    · rw [ha', hb']
    · exact absurd (ha' ▸ he ▸ List.mem_map_of_mem hb') hx
    · exact absurd (hb' ▸ he ▸ List.mem_map_of_mem ha') hx
    · exact ih hr ha' hb' he

theorem ordered_perm {f g : Fields} (h : f.Perm g) (hf : (f.map Prod.fst).Nodup) :
    (object f).ordered = (object g).ordered := by
  have htrans (a b c : Text × Value) (hab : byName a b = true) (hbc : byName b c = true) :
      byName a c = true := by
    rw [byName_iff] at hab hbc ⊢
    exact List.le_trans hab hbc
  have htotal (a b : Text × Value) : (byName a b || byName b a) = true := by
    rw [Bool.or_eq_true, byName_iff, byName_iff]
    exact List.le_total a.1.codes b.1.codes
  have hordered : (orderedFields f).Perm (orderedFields g) := by
    rw [orderedFields_eq_map, orderedFields_eq_map]
    exact h.map _
  have hnodup : ((orderedFields f).map Prod.fst).Nodup := by rwa [map_fst_orderedFields]
  refine congrArg object (List.Perm.eq_of_pairwise ?_ (List.pairwise_mergeSort htrans htotal _)
    (List.pairwise_mergeSort htrans htotal _) ?_)
  · intro a b ha hb hab hba
    have hname := Text.codes_inj.mp (List.le_antisymm (byName_iff.mp hab) (byName_iff.mp hba))
    exact eq_of_fst_eq hnodup (List.mem_mergeSort.mp ha)
      (hordered.mem_iff.mpr (List.mem_mergeSort.mp hb)) hname
  · exact (List.mergeSort_perm _ _).trans (hordered.trans (List.mergeSort_perm _ _).symm)

/-! ### Whole floats -/

mutual

theorem ordered_coerced : ∀ v : Value, (coerced v).ordered = coerced v.ordered
  | .null | .bool _ | .int _ | .text _ | .bytes _ | .object _ => rfl
  | .float x => by
    show (coerced (.float x)).ordered = coerced (.float x)
    rw [coerced]
    split <;> rfl
  | .list xs | .tuple xs => by
    simp only [coerced, Value.ordered, orderedList_coercedList xs]

theorem orderedList_coercedList : ∀ xs : List Value,
    orderedList (coercedList xs) = coercedList (orderedList xs)
  | [] => rfl
  | x :: xs => by
    simp only [coercedList, orderedList, ordered_coerced x, orderedList_coercedList xs]

end

end Value

def Comparison.ordered (c : Comparison) : Comparison := { c with value := c.value.ordered }

namespace Filter

mutual

def ordered : Filter → Filter
  | .comparison c => .comparison c.ordered
  | .connector symbol => .connector symbol
  | .group children => .group (orderedList children)

def orderedList : List Filter → List Filter
  | [] => []
  | f :: fs => ordered f :: orderedList fs

end

theorem isConnector_ordered (f : Filter) : f.ordered.isConnector = f.isConnector := by
  cases f <;> rfl

end Filter

namespace Predicate

def ordered (p : Predicate) : Predicate := { p with params := p.params.map Value.ordered }

def Fragment.ordered (fr : Fragment) : Fragment := { fr with predicate := fr.predicate.ordered }

end Predicate

/-! ### Compiling -/

theorem Value.elements?_ordered (v : Value) :
    v.ordered.elements? = v.elements?.map (List.map Value.ordered) := by
  cases v <;> simp [Value.ordered, elements?, orderedList_eq_map]

namespace Comparison

theorem isNull_ordered (v : Value) : isNull v.ordered = isNull v := by
  cases v <;> rfl

theorem wrappedValue_ordered (cfg : Config) (v : Value) :
    wrappedValue cfg v.ordered = (wrappedValue cfg v).map Value.ordered := by
  cases v with
  | text s =>
    show wrappedValue cfg (.text s) = _
    rw [wrappedValue]
    split
    · rfl
    · cases Text.Template.fill cfg.valueWrapper s <;> rfl
  | _ => rfl

theorem patternPredicate_ordered (cfg : Config) (column : Text) (c : Comparison) :
    patternPredicate cfg column c.ordered =
      (patternPredicate cfg column c).map Predicate.ordered := by
  have hvalue : c.ordered.value = c.value.ordered := rfl
  rw [patternPredicate, patternPredicate, hvalue, wrappedValue_ordered]
  cases wrappedColumn cfg column with
  | error e => rfl
  | ok column => cases wrappedValue cfg c.value <;> rfl

theorem predicateOrEmpty_ordered (cfg : Config) (c : Comparison) :
    c.ordered.predicateOrEmpty cfg = (c.predicateOrEmpty cfg).map Predicate.ordered := by
  have hvalue : c.ordered.value = c.value.ordered := rfl
  have hcolumn : c.ordered.column = c.column := rfl
  have hoperator : c.ordered.operator = c.operator := rfl
  rw [predicateOrEmpty, predicateOrEmpty, predicate, predicate]
  simp only [hvalue, hcolumn, hoperator, isNull_ordered, Value.elements?_ordered,
    patternPredicate_ordered, ← Value.ordered_coerced]
  split
  · rfl
  split
  · split <;> rfl
  · rcases c.value.elements? with _ | _ | ⟨low, _ | ⟨high, _ | _⟩⟩
    case some.cons.cons.nil => simp [Except.map, Predicate.ordered, Value.ordered_coerced]
    all_goals rfl
  · cases c.value.elements? <;> rfl
  · cases patternPredicate cfg (columnToken cfg c.column) c <;> rfl
  · rfl

end Comparison

namespace Predicate

theorem assemble_ordered (cfg : Config) (frs : List Fragment) :
    assemble cfg (frs.map Fragment.ordered) = (assemble cfg frs).ordered := by
  have henclose (frs : List Fragment) :
      enclose (frs.map Fragment.ordered) = (enclose frs).ordered := by
    cases frs with
    | nil => rfl
    | cons fr frs =>
      simp [enclose, ordered, Fragment.ordered, List.flatMap_map, List.map_flatMap]
  have hfilter : (frs.map Fragment.ordered).filter (fun fr => !fr.predicate.tokens.isEmpty) =
      (frs.filter fun fr => !fr.predicate.tokens.isEmpty).map Fragment.ordered := by
    rw [List.filter_map]
    rfl
  have hkind (fr : Fragment) : fr.ordered.isConnector = fr.isConnector := rfl
  have hfill : connectorFragment cfg.operator.text =
      (connectorFragment cfg.operator.text).ordered := rfl
  rw [assemble, hfilter, hfill, interleave_map Fragment.ordered hkind, henclose, assemble]

mutual

/-- Compiling commutes with sorting fields. -/
theorem ofFilter_ordered (cfg : Config) : ∀ f : Filter,
    ofFilter cfg f.ordered = (ofFilter cfg f).map ordered
  | .comparison c => c.predicateOrEmpty_ordered cfg
  | .connector symbol => rfl
  | .group children => by
    rw [Filter.ordered, ofFilter, fragments_ordered cfg children, ofFilter]
    cases fragments cfg children with
    | error e => rfl
    | ok frs => exact congrArg Except.ok (assemble_ordered cfg frs)

theorem fragments_ordered (cfg : Config) : ∀ fs : List Filter,
    fragments cfg (Filter.orderedList fs) =
      (fragments cfg fs).map (List.map Fragment.ordered)
  | [] => rfl
  | f :: fs => by
    rw [Filter.orderedList, fragments, fragments, ofFilter_ordered cfg f, fragments_ordered cfg fs,
      Filter.isConnector_ordered]
    cases ofFilter cfg f with
    | error e => rfl
    | ok p => cases fragments cfg fs <;> rfl

end

end Predicate

def Descriptor.ordered (d : Descriptor) : Descriptor := { d with filter := d.filter.ordered }

namespace Query

def ordered (q : Query) : Query := { q with params := q.params.map Value.ordered }

theorem ofDescriptor_ordered (cfg : Config) (d : Descriptor) :
    ofDescriptor cfg d.ordered = (ofDescriptor cfg d).map ordered := by
  have hfilter : d.ordered.filter = d.filter.ordered := rfl
  rw [ofDescriptor, ofDescriptor, hfilter, Predicate.ofFilter_ordered]
  cases Predicate.ofFilter cfg d.filter <;> rfl

/-- Descriptors that are alike but for the order of fields compile alike. -/
theorem ofDescriptor_congr (cfg : Config) {d d' : Descriptor} (h : d.ordered = d'.ordered) :
    (ofDescriptor cfg d).map ordered = (ofDescriptor cfg d').map ordered := by
  rw [← ofDescriptor_ordered, ← ofDescriptor_ordered, h]

end Query

end Paging
