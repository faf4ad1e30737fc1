import Paging.Predicate
import Paging.Proofs.Identifier

/-! What one comparison compiles to. A usable comparison becomes an atom of the
condition and the values for the placeholders of the atom; any other becomes nothing. -/
namespace Paging

structure Config.Untemplated (cfg : Config) : Prop where
  field : cfg.fieldWrapper = cfg.sqlDialect.fieldWrapper
  value : cfg.valueWrapper = ""

theorem Config.untemplated_resolve (config : Config) (dialect : Option String)
    (hf : config.fieldWrapper = "") (hv : config.valueWrapper = "") :
    (config.resolve dialect).Untemplated where
  field := by simp [resolve, sqlDialect, hf, hv]
  value := by simp [resolve, hv]

/-- The smallest conditions. -/
inductive Atom
  /-- `column operator ?` -/
  | bound (column : Text) (o : FilterOperator)
  /-- `column operator NULL` -/
  | null (column : Text) (o : FilterOperator)
  /-- `column operator ?` and the escape clause of the dialect -/
  | escaped (column : Text) (o : FilterOperator)
  /-- `( column operator ? AND ? )` -/
  | between (column : Text) (o : FilterOperator)

namespace Atom

def column : Atom → Text
  | .bound c _ | .null c _ | .escaped c _ | .between c _ => c

def operator : Atom → FilterOperator
  | .bound _ o | .null _ o | .escaped _ o | .between _ o => o

def tokens (d : Dialect) : Atom → List Text
  | .bound c o => [c, o.text, "?"]
  | .null c o => [c, o.text, "NULL"]
  | .escaped c o => [c, o.text, "?", d.escapeSuffix]
  | .between c o => ["(", c, o.text, "?", "AND", "?", ")"]

def arity : Atom → Nat
  | .null _ _ => 0
  | .bound _ _ | .escaped _ _ => 1
  | .between _ _ => 2

def Valid (d : Dialect) (a : Atom) : Prop :=
  IsColumn d a.column ∧ match a with
    | .escaped _ _ => d.escapeSuffix ≠ ""
    | .between _ o => o = .between ∨ o = .notBetween
    | _ => True

@[simp] theorem tokens_ne_nil (d : Dialect) (a : Atom) : a.tokens d ≠ [] := by
  cases a <;> simp [tokens]

end Atom

namespace Comparison

/-- May a value stand with the operators of a family? A range takes exactly two values and a set
takes a list. -/
def Fits (v : Value) : FilterOperator.Family → Prop
  | .range => v.elements?.map List.length = some 2
  | .set => v.elements?.isSome = true
  | .plain | .nullCheck | .pattern => True

instance (v : Value) : (f : FilterOperator.Family) → Decidable (Fits v f)
  | .range => inferInstanceAs (Decidable (_ = _))
  | .set => inferInstanceAs (Decidable (_ = _))
  | .plain | .nullCheck | .pattern => inferInstanceAs (Decidable True)

theorem fits_range_iff {v : Value} :
    Fits v .range ↔ ∃ low high, v.elements? = some [low, high] := by
  simp only [Fits, Option.map_eq_some_iff]
  constructor
  · rintro ⟨xs, hxs, hlength⟩
    match xs, hlength with
    | [low, high], _ => exact ⟨low, high, hxs⟩
  · rintro ⟨low, high, hxs⟩
    exact ⟨_, hxs, rfl⟩

/-- Can a comparison be expressed? Something has to be left of its column, and its value has to fit
its operator. -/
def Usable (cfg : Config) (c : Comparison) : Prop :=
  columnToken cfg c.column ≠ "" ∧ Fits c.value (family c.operator)

instance (cfg : Config) (c : Comparison) : Decidable (c.Usable cfg) :=
  inferInstanceAs (Decidable (_ ∧ _))

/-- How many parameters a comparison takes: none if it cannot be expressed or checks for null, two
for a range, else one. -/
def parameterCount (cfg : Config) (c : Comparison) : Nat :=
  if c.Usable cfg then
    match family c.operator with
    | .nullCheck => if isNull c.value then 0 else 1
    | .range => 2
    | .plain | .set | .pattern => 1
  else 0

/-- The operator is one of the predicate's own, and the suffix is missing or that of the
dialect. -/
def Canonical (d : Dialect) (c : Comparison) : Prop :=
  (∃ o : FilterOperator, c.operator = o.text) ∧ (c.suffix = "" ∨ c.suffix = d.escapeSuffix)

def atom (cfg : Config) (o : FilterOperator) (c : Comparison) : Atom :=
  let column := columnToken cfg c.column
  match o.family with
  | .plain | .set => .bound column o
  | .nullCheck => if isNull c.value then .null column o else .bound column o
  | .range => .between column o
  | .pattern =>
    if c.suffix = "" then .bound (cfg.sqlDialect.wrap column) o
    else .escaped (cfg.sqlDialect.wrap column) o

def values (o : FilterOperator) (c : Comparison) : List Value :=
  match o.family with
  | .plain | .set => [c.value.coerced]
  | .nullCheck => if isNull c.value then [] else [c.value]
  | .range => ((c.value.elements?.getD []).map Value.coerced)
  | .pattern =>
    match c.value with
    | .text s => [.text (Text.lower s)]
    | v => [v]

theorem family_text (o : FilterOperator) : family o.text = o.family := by
  simp [family]

variable {cfg : Config} {c : Comparison} {o : FilterOperator}

theorem wrappedColumn_eq (hcfg : cfg.Untemplated) (column : Text) :
    wrappedColumn cfg column = .ok (cfg.sqlDialect.wrap column) := by
  have hd := Dialect.sqlDialect_mem_known cfg
  have hne : cfg.fieldWrapper.isEmpty = false := by
    rw [hcfg.field]
    rcases Dialect.mem_known_iff.mp hd with h | h | h | h | h <;> rw [h] <;> decide
  rw [wrappedColumn, hne, hcfg.field]
  exact Dialect.fill_eq_wrap hd column

theorem wrappedValue_eq (hcfg : cfg.Untemplated) (h : o.family = .pattern) (c : Comparison) :
    ∃ v, wrappedValue cfg c.value = .ok v ∧ c.values o = [v] := by
  rw [values]
  rw [h]
  cases hv : c.value <;> simp [wrappedValue, hcfg.value]

theorem patternPredicate_eq (hcfg : cfg.Untemplated) (ho : c.operator = o.text)
    (hs : c.suffix = "" ∨ c.suffix = cfg.sqlDialect.escapeSuffix) (hf : o.family = .pattern) :
    patternPredicate cfg (columnToken cfg c.column) c =
      .ok ⟨(c.atom cfg o).tokens cfg.sqlDialect, c.values o⟩ := by
  obtain ⟨v, hv, hvs⟩ := wrappedValue_eq hcfg hf c
  simp only [patternPredicate, wrappedColumn_eq hcfg, hv, bind, Except.bind, pure, Except.pure,
    hvs, atom, hf, ho]
  by_cases hempty : c.suffix = ""
  · simp [hempty, Atom.tokens, Predicate.placeholder]
  · have hsuffix := hs.resolve_left hempty
    simp [hempty, Atom.tokens, Predicate.placeholder, ← hsuffix]

/-- A usable comparison compiles to its atom and its values. -/
theorem predicateOrEmpty_of_usable (hcfg : cfg.Untemplated) (ho : c.operator = o.text)
    (hs : c.suffix = "" ∨ c.suffix = cfg.sqlDialect.escapeSuffix) (hu : c.Usable cfg) :
    c.predicateOrEmpty cfg =
      .ok ⟨(c.atom cfg o).tokens cfg.sqlDialect, c.values o⟩ := by
  obtain ⟨hcolumn, hvalue⟩ := hu
  rw [ho, family_text] at hvalue
  have hne : (columnToken cfg c.column).isEmpty = false := by simpa using hcolumn
  rw [predicateOrEmpty, predicate]
  simp only [hne, ho, family_text]
  cases hf : o.family with
  | plain => simp [Except.map, atom, values, hf, Atom.tokens, Predicate.placeholder]
  | nullCheck =>
    by_cases hn : isNull c.value <;>
      simp [Except.map, atom, values, hf, hn, Atom.tokens, Predicate.placeholder]
  | set =>
    rw [hf] at hvalue
    obtain ⟨xs, hxs⟩ := Option.isSome_iff_exists.mp hvalue
    simp [Except.map, atom, values, hf, hxs, Atom.tokens, Predicate.placeholder]
  | range =>
    rw [hf] at hvalue
    obtain ⟨low, high, hxs⟩ := fits_range_iff.mp hvalue
    simp [Except.map, atom, values, hf, hxs, Atom.tokens, Predicate.placeholder]
  | pattern => simp [patternPredicate_eq hcfg ho hs hf, Except.map]

/-- A comparison that is not usable compiles to nothing. -/
theorem predicateOrEmpty_of_not_usable (hu : ¬ c.Usable cfg) : c.predicateOrEmpty cfg = .ok {} := by
  rw [predicateOrEmpty, predicate]
  by_cases hcolumn : columnToken cfg c.column = ""
  · simp [hcolumn, Except.map]
  · have hne : (columnToken cfg c.column).isEmpty = false := by simpa using hcolumn
    have hvalue := not_and.mp hu hcolumn
    simp only [hne]
    cases hf : family c.operator with
    | plain | nullCheck | pattern =>
      rw [hf] at hvalue
      exact absurd trivial hvalue
    | set =>
      rw [hf] at hvalue
      cases hxs : c.value.elements? with
      | none => simp [Except.map]
      | some xs => exact absurd (by simp [Fits, hxs]) hvalue
    | range =>
      rw [hf, fits_range_iff] at hvalue
      match hxs : c.value.elements? with
      | none | some [] | some [_] | some (_ :: _ :: _ :: _) => simp [Except.map]
      | some [low, high] => exact absurd ⟨low, high, hxs⟩ hvalue

/-- The atom of a usable comparison is valid in its dialect. -/
theorem valid_atom (o : FilterOperator) (hcolumn : columnToken cfg c.column ≠ "")
    (hs : c.suffix = "" ∨ c.suffix = cfg.sqlDialect.escapeSuffix) :
    (c.atom cfg o).Valid cfg.sqlDialect := by
  have hid : IsIdentifier cfg.sqlDialect (columnToken cfg c.column) :=
    Dialect.isIdentifier_quote _ _ hcolumn
  have hwrap := hid.isColumn_wrap (Dialect.sqlDialect_mem_known cfg)
  rw [atom]
  cases hf : o.family with
  | plain | set => exact ⟨hid.isColumn, trivial⟩
  | nullCheck =>
    dsimp only
    split <;> exact ⟨hid.isColumn, trivial⟩
  | range =>
    refine ⟨hid.isColumn, ?_⟩
    cases o <;> simp_all [FilterOperator.family]
  | pattern =>
    dsimp only
    split
    · exact ⟨hwrap, trivial⟩
    · rename_i hne
      exact ⟨hwrap, hs.resolve_left hne ▸ hne⟩

/-- A usable comparison has a value for each placeholder of its atom. -/
theorem length_values (ho : c.operator = o.text) (hu : c.Usable cfg) :
    (c.values o).length = (c.atom cfg o).arity := by
  obtain ⟨-, hvalue⟩ := hu
  rw [ho, family_text] at hvalue
  rw [values, atom]
  cases hf : o.family with
  | plain | set => rfl
  | nullCheck => by_cases hn : isNull c.value <;> simp [hn, Atom.arity]
  | range =>
    rw [hf] at hvalue
    obtain ⟨low, high, hxs⟩ := fits_range_iff.mp hvalue
    simp [hxs, Atom.arity]
  | pattern =>
    dsimp only
    split <;> split <;> rfl

theorem arity_atom (ho : c.operator = o.text) (hu : c.Usable cfg) :
    (c.atom cfg o).arity = c.parameterCount cfg := by
  rw [parameterCount, if_pos hu, ho, family_text]
  rw [atom]
  cases o.family with
  | plain | set | range => rfl
  | nullCheck => by_cases hn : isNull c.value <;> simp [hn, Atom.arity]
  | pattern =>
    dsimp only
    split <;> rfl

/-! ### Any operator and any template -/

/-- The parameters that a family takes of a value; those of a pattern match depend on the
templates. -/
def Takes (v : Value) (params : List Value) : FilterOperator.Family → Prop
  | .plain | .set => params = [v.coerced]
  | .nullCheck => params = if isNull v then [] else [v]
  | .range => params = (v.elements?.getD []).map Value.coerced
  | .pattern => ∃ w, params = [w]

theorem takes_of_patternPredicate {column : Text} {p : Predicate}
    (h : patternPredicate cfg column c = .ok p) :
    p.tokens ≠ [] ∧ Takes c.value p.params .pattern := by
  simp only [patternPredicate, bind, Except.bind, pure, Except.pure] at h
  split at h
  · cases h
  split at h
  · cases h
  cases h
  exact ⟨by simp, _, rfl⟩

/-- Whatever a usable comparison compiles to, it has tokens and takes the parameters of its
family. -/
theorem takes_of_usable {p : Predicate} (hu : c.Usable cfg) (h : c.predicateOrEmpty cfg = .ok p) :
    p.tokens ≠ [] ∧ Takes c.value p.params (family c.operator) := by
  obtain ⟨hcolumn, hvalue⟩ := hu
  have hne : (columnToken cfg c.column).isEmpty = false := by simpa using hcolumn
  rw [predicateOrEmpty, predicate] at h
  simp only [hne, Bool.false_eq_true, if_false] at h
  cases hf : family c.operator with
  | plain =>
    rw [hf] at h
    cases h
    exact ⟨by simp, rfl⟩
  | nullCheck =>
    rw [hf] at h
    by_cases hn : isNull c.value = true
    · simp only [hn, if_true, Except.map] at h
      cases h
      exact ⟨by simp, (if_pos hn).symm⟩
    · simp only [hn, Except.map] at h
      cases h
      exact ⟨by simp, (if_neg hn).symm⟩
  | set =>
    rw [hf] at h hvalue
    obtain ⟨xs, hxs⟩ := Option.isSome_iff_exists.mp hvalue
    rw [hxs] at h
    cases h
    exact ⟨by simp, rfl⟩
  | range =>
    rw [hf] at h hvalue
    obtain ⟨low, high, hxs⟩ := fits_range_iff.mp hvalue
    rw [hxs] at h
    cases h
    exact ⟨by simp, by simp [Takes, hxs]⟩
  | pattern =>
    rw [hf] at h
    cases hp : patternPredicate cfg (columnToken cfg c.column) c with
    | error e =>
      rw [hp] at h
      cases h
    | ok q =>
      rw [hp] at h
      cases h
      exact takes_of_patternPredicate hp

end Comparison

end Paging
