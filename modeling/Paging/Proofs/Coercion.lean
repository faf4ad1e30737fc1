import Paging.Proofs.Discarding
import Paging.Proofs.NumberText

/-! Parameters that are numbers. Of the value of a comparison that does not match a pattern or check
for null, a float is bound as an integer if its value is a natural number below the limit, and
nothing else changes: the lists keep their shape at every depth, and every other leaf stays as it
is. These floats are those whose plain text is digits alone. -/
namespace Paging

open Decimal

/-- The value of a float is the natural number `n`, and this is below 10²¹. The zero with a minus is
such a float. -/
def Decimal.Binary64.IsPlain (x : Binary64) (n : ℕ) : Prop := x.IsInt n ∧ n < 10 ^ 21

namespace Value

/-- A leaf that is bound as it is: no list, no tuple, and no float with a plain value. -/
def IsKept : Value → Prop
  | .list _ | .tuple _ => False
  | .float x => ∀ n, ¬ x.IsPlain n
  | _ => True

/-- The value `w` is bound for the value `v`: lists and tuples of the same lengths at every depth as
lists, floats with a plain value as integers, any other leaf as it is. -/
inductive BoundAs : Value → Value → Prop
  | list {xs ys : List Value} : List.Forall₂ BoundAs xs ys → BoundAs (.list xs) (.list ys)
  | tuple {xs ys : List Value} : List.Forall₂ BoundAs xs ys → BoundAs (.tuple xs) (.list ys)
  | plain {x : Binary64} {n : ℕ} : x.IsPlain n → BoundAs (.float x) (.int n)
  | kept {v : Value} : v.IsKept → BoundAs v v

inductive Within (v : Value) : Value → Prop
  | here : Within v v
  | list {x : Value} {xs : List Value} : x ∈ xs → Within v x → Within v (.list xs)
  | tuple {x : Value} {xs : List Value} : x ∈ xs → Within v x → Within v (.tuple xs)

/-! ### Floats -/

theorem wholeNat?_eq_some_iff {x : Binary64} {k : ℤ} :
    wholeNat? x = some k ↔ ∃ n : ℕ, k = n ∧ x.IsPlain n := by
  simp only [wholeNat?, wholeFloat?, Option.filter_eq_some_iff, Binary64.toInt?_eq_some_iff,
    decide_eq_true_eq, Binary64.IsPlain]
  constructor
  · rintro ⟨⟨hint, hlimit⟩, hpos⟩
    obtain ⟨n, rfl⟩ := Int.eq_ofNat_of_zero_le hpos
    exact ⟨n, rfl, hint, hlimit⟩
  · rintro ⟨n, rfl, hint, hlimit⟩
    exact ⟨⟨hint, hlimit⟩, Int.natCast_nonneg n⟩

theorem coerced_of_isPlain {x : Binary64} {n : ℕ} (h : x.IsPlain n) :
    (Value.float x).coerced = .int n := by
  rw [coerced, wholeNat?_eq_some_iff.mpr ⟨n, rfl, h⟩]

theorem coerced_of_not_isPlain {x : Binary64} (h : ∀ n, ¬ x.IsPlain n) :
    (Value.float x).coerced = .float x := by
  have hnone : wholeNat? x = none := by
    refine Option.eq_none_iff_forall_ne_some.mpr fun k hk => ?_
    obtain ⟨n, -, hn⟩ := wholeNat?_eq_some_iff.mp hk
    exact h n hn
  rw [coerced, hnone]

theorem coerced_float_cases (x : Binary64) :
    (∃ n : ℕ, x.IsPlain n ∧ (Value.float x).coerced = .int n) ∨
      (∀ n, ¬ x.IsPlain n) ∧ (Value.float x).coerced = .float x := by
  by_cases hx : ∃ n, x.IsPlain n
  · obtain ⟨n, hn⟩ := hx
    exact .inl ⟨n, hn, coerced_of_isPlain hn⟩
  · have hnone := not_exists.mp hx
    exact .inr ⟨hnone, coerced_of_not_isPlain hnone⟩

theorem not_isDigits_render (st : Style) (x : Binary64) (hnan : ¬ Json.IsDigits st.nan.toList)
    (hinfinity : ¬ Json.IsDigits st.infinity.toList) :
    ¬ Json.IsDigits (st.render x).toList := by
  match x with
  | .nan => exact hnan
  | .infinite negative =>
    cases negative with
    | false => exact hinfinity
    | true =>
      intro h
      exact absurd (h '-' (by simp [Style.render])) (by decide)
  | .finite negative x =>
    obtain ⟨l, hl, hwrites⟩ := Json.exists_literal st x
    intro h
    have hin {c : Char} (hc : c ∈ l.text) : c.isDigit = true := by
      refine h c ?_
      rw [Json.toList_render, ← hl]
      exact List.mem_append_right _ hc
    rcases not_and_or.mp hwrites.float with hfraction | hexponent
    · obtain ⟨c, ds, hds⟩ := List.exists_cons_of_ne_nil hfraction
      exact absurd (hin (c := '.') (by simp [Json.Literal.text, hds, Json.Literal.fractionText]))
        (by decide)
    · obtain ⟨⟨negative, ds⟩, hds⟩ := Option.ne_none_iff_exists'.mp hexponent
      exact absurd (hin (c := 'e') (by simp [Json.Literal.text, hds, Json.Literal.exponentText]))
        (by decide)

theorem isDigits_plainFloat_iff (x : Binary64) :
    Json.IsDigits (plainFloat x).toList ↔
      ∃ n, x.IsPlain n ∧ (plainFloat x).toList = Nat.toDigits 10 n := by
  constructor
  · intro h
    rw [plainFloat] at h ⊢
    cases hx : wholeFloat? x with
    | none =>
      rw [hx] at h
      -- `nan` and `inf` start with letters.
      have hnan : ¬ Json.IsDigits floatStyle.nan.toList :=
        fun hdigits => absurd (hdigits 'n' (by decide)) (by decide)
      have hinfinity : ¬ Json.IsDigits floatStyle.infinity.toList :=
        fun hdigits => absurd (hdigits 'i' (by decide)) (by decide)
      exact absurd h (not_isDigits_render floatStyle x hnan hinfinity)
    | some k =>
      rw [hx] at h
      simp only [Json.toList_toString_int] at h ⊢
      have hpos : 0 ≤ k := by
        by_contra hneg
        have hsign : decide (k < 0) = true := by simpa using hneg
        exact absurd (h '-' (by simp [hsign, Json.signText])) (by decide)
      have hnat : wholeNat? x = some k := by
        rw [wholeNat?, hx]
        simpa using hpos
      obtain ⟨n, rfl, hn⟩ := wholeNat?_eq_some_iff.mp hnat
      exact ⟨n, hn, by simp [Json.signText]⟩
  · rintro ⟨n, -, htext⟩
    rw [htext]
    exact Json.isDigits_toDigits n

/-! ### Values -/

mutual

theorem boundAs_coerced : ∀ v : Value, BoundAs v v.coerced
  | .list xs => .list (boundAs_coercedList xs)
  | .tuple xs => .tuple (boundAs_coercedList xs)
  | .float x => by
    rcases coerced_float_cases x with ⟨n, hn, hx⟩ | ⟨hnone, hx⟩
    · rw [hx]
      exact .plain hn
    · rw [hx]
      exact .kept hnone
  | .null | .bool _ | .int _ | .text _ | .bytes _ | .object _ => .kept trivial

theorem boundAs_coercedList : ∀ xs : List Value, List.Forall₂ BoundAs xs (coercedList xs)
  | [] => .nil
  | x :: xs => .cons (boundAs_coerced x) (boundAs_coercedList xs)

end

mutual

/-- What is bound once is bound as it is. -/
theorem coerced_coerced : ∀ v : Value, v.coerced.coerced = v.coerced
  | .list xs => congrArg Value.list (coercedList_coercedList xs)
  | .tuple xs => congrArg Value.list (coercedList_coercedList xs)
  | .float x => by
    rcases coerced_float_cases x with ⟨n, -, hx⟩ | ⟨-, hx⟩
    · rw [hx]
      rfl
    · rw [hx, hx]
  | .null | .bool _ | .int _ | .text _ | .bytes _ | .object _ => rfl

theorem coercedList_coercedList : ∀ xs : List Value,
    coercedList (coercedList xs) = coercedList xs
  | [] => rfl
  | x :: xs => congrArg₂ List.cons (coerced_coerced x) (coercedList_coercedList xs)

end

theorem exists_of_forall₂_of_mem {R : Value → Value → Prop} {xs ys : List Value}
    (h : List.Forall₂ R xs ys) {y : Value} (hy : y ∈ ys) : ∃ x, R x y := by
  induction h with
  | nil => cases hy
  | cons hxy _ ih =>
    rcases List.mem_cons.mp hy with rfl | hy
    · exact ⟨_, hxy⟩
    · exact ih hy

theorem BoundAs.not_isPlain {x : Binary64} {v w : Value} (h : BoundAs v w)
    (hx : Within (.float x) w) : ∀ n, ¬ x.IsPlain n := by
  induction hx generalizing v with
  | here =>
    cases h with
    | kept hkept => exact hkept
  | list hmem _ ih =>
    cases h with
    | list hall | tuple hall =>
      obtain ⟨v, hv⟩ := exists_of_forall₂_of_mem hall hmem
      exact ih hv
    | kept hkept => exact hkept.elim
  | tuple _ _ _ =>
    cases h with
    | kept hkept => exact hkept.elim

end Value

/-! ### Parameters -/

namespace Comparison

/-- The parameters `params` of a comparison: one for its value or, in a range, one for each bound,
with numbers bound as integers; in a check for null the value as it is; in a pattern match one
parameter, which depends on the templates. -/
def Binds (cfg : Config) (c : Comparison) (params : List Value) : Prop :=
  if c.Usable cfg then
    match family c.operator with
    | .plain | .set => ∃ v, params = [v] ∧ c.value.BoundAs v
    | .range => ∃ low high low' high', c.value.elements? = some [low, high] ∧
        params = [low', high'] ∧ low.BoundAs low' ∧ high.BoundAs high'
    | .nullCheck => params = if isNull c.value then [] else [c.value]
    | .pattern => ∃ v, params = [v]
  else params = []

variable {cfg : Config} {c : Comparison}

theorem binds_of_predicateOrEmpty {p : Predicate} (h : c.predicateOrEmpty cfg = .ok p) :
    c.Binds cfg p.params := by
  rw [Binds]
  split
  case isFalse hu =>
    rw [predicateOrEmpty_of_not_usable hu] at h
    cases h
    rfl
  case isTrue hu =>
    obtain ⟨-, htakes⟩ := takes_of_usable hu h
    have hfits := hu.2
    cases hf : family c.operator with
    | plain | set =>
      rw [hf] at htakes
      exact ⟨_, htakes, c.value.boundAs_coerced⟩
    | nullCheck =>
      rw [hf] at htakes
      exact htakes
    | range =>
      rw [hf] at htakes hfits
      obtain ⟨low, high, hvalue⟩ := fits_range_iff.mp hfits
      refine ⟨low, high, low.coerced, high.coerced, hvalue, ?_, low.boundAs_coerced,
        high.boundAs_coerced⟩
      rw [htakes, hvalue]
      rfl
    | pattern =>
      rw [hf] at htakes
      exact htakes

theorem Binds.not_isPlain {params : List Value} (h : c.Binds cfg params)
    (hpattern : family c.operator ≠ .pattern) (hnull : family c.operator ≠ .nullCheck) {v : Value}
    (hv : v ∈ params) {x : Binary64} (hx : (Value.float x).Within v) (n : ℕ) : ¬ x.IsPlain n := by
  rw [Binds] at h
  split at h
  case isFalse =>
    rw [h] at hv
    cases hv
  case isTrue =>
    cases hf : family c.operator with
    | plain | set =>
      rw [hf] at h
      obtain ⟨w, rfl, hw⟩ := h
      obtain rfl := List.mem_singleton.mp hv
      exact hw.not_isPlain hx n
    | range =>
      rw [hf] at h
      obtain ⟨low, high, low', high', -, rfl, hlow, hhigh⟩ := h
      rcases List.mem_pair.mp hv with rfl | rfl
      · exact hlow.not_isPlain hx n
      · exact hhigh.not_isPlain hx n
    | nullCheck => exact absurd hf hnull
    | pattern => exact absurd hf hpattern

end Comparison

namespace Predicate

open Paging.Filter

variable {cfg : Config}

theorem params_eq_nil {f : Filter} {p : Predicate} (h : ofFilter cfg f = .ok p)
    (hp : p.tokens = []) : p.params = [] := by
  cases f with
  | comparison c =>
    by_cases hu : c.Usable cfg
    · exact absurd hp (Comparison.takes_of_usable hu h).1
    · rw [ofFilter, Comparison.predicateOrEmpty_of_not_usable hu] at h
      cases h
      rfl
  | connector symbol =>
    cases h
    cases hp
  | group fs =>
    obtain ⟨rfl, -⟩ := ofFilter_group_eq_ok h
    rw [assemble] at hp ⊢
    generalize interleave Fragment.isConnector (connectorFragment cfg.operator.text)
      ((fs.map (fragmentOf cfg)).filter fun fr => !fr.predicate.tokens.isEmpty) = frs at hp ⊢
    cases frs with
    | nil => rfl
    | cons fr frs => cases hp

def paramsOf (cfg : Config) (f : Filter) : List Value := (fragmentOf cfg f).predicate.params

theorem flatMap_paramsOf_kept {fs : List Filter}
    (h : ∀ f ∈ fs, ofFilter cfg f = .ok (fragmentOf cfg f).predicate) :
    (fs.filter (kept cfg)).flatMap (paramsOf cfg) = fs.flatMap (paramsOf cfg) := by
  induction fs with
  | nil => rfl
  | cons f fs ih =>
    obtain ⟨hf, hfs⟩ := List.forall_mem_cons.mp h
    by_cases hkept : kept cfg f = true
    · rw [List.filter_cons_of_pos hkept, List.flatMap_cons, List.flatMap_cons, ih hfs]
    · have hnone : paramsOf cfg f = [] := params_eq_nil hf (by simpa [kept] using hkept)
      rw [List.filter_cons_of_neg hkept, List.flatMap_cons, hnone, ih hfs, List.nil_append]

/-- The parameters of a group are those of its parts: the repair of the connectors and the parts
that drop out change none. -/
theorem params_group {fs : List Filter} {p : Predicate} (h : ofFilter cfg (.group fs) = .ok p) :
    p.params = fs.flatMap (paramsOf cfg) := by
  obtain ⟨rfl, hcompiled⟩ := ofFilter_group_eq_ok h
  have hconnector (f : Filter) (hf : f.isConnector = true) : paramsOf cfg f = [] := by
    obtain ⟨symbol, rfl⟩ := exists_eq_connector hf
    rfl
  have hparams (frs : List Fragment) :
      (enclose frs).params = frs.flatMap fun fr => fr.predicate.params := by
    cases frs <;> rfl
  rw [assemble_fragments, hparams, List.flatMap_map]
  exact (flatMap_interleave (paramsOf cfg) hconnector rfl _).trans (flatMap_paramsOf_kept hcompiled)

mutual

/-- The parameters of a filter are those of its comparisons, one behind the other. -/
theorem exists_binds : ∀ {f : Filter} {p : Predicate}, ofFilter cfg f = .ok p →
    ∃ parts, List.Forall₂ (Comparison.Binds cfg) f.comparisons parts ∧ p.params = parts.flatten
  | .comparison c, p, h =>
    ⟨[p.params], .cons (Comparison.binds_of_predicateOrEmpty h) .nil, by simp⟩
  | .connector symbol, p, h => by
    cases h
    exact ⟨[], .nil, rfl⟩
  | .group fs, p, h => by
    obtain ⟨parts, hparts, hflat⟩ := exists_bindsAll (ofFilter_group_eq_ok h).2
    exact ⟨parts, hparts, (params_group h).trans hflat⟩

theorem exists_bindsAll : ∀ {fs : List Filter},
    (∀ f ∈ fs, ofFilter cfg f = .ok (fragmentOf cfg f).predicate) →
      ∃ parts, List.Forall₂ (Comparison.Binds cfg) (comparisonsOf fs) parts ∧
        fs.flatMap (paramsOf cfg) = parts.flatten
  | [], _ => ⟨[], .nil, rfl⟩
  | f :: fs, h => by
    obtain ⟨hf, hfs⟩ := List.forall_mem_cons.mp h
    obtain ⟨own, hown, hparams⟩ := exists_binds hf
    obtain ⟨rest, hrest, hflat⟩ := exists_bindsAll hfs
    refine ⟨own ++ rest, List.rel_append hown hrest, ?_⟩
    rw [List.flatMap_cons, hflat, List.flatten_append, ← hparams, paramsOf]

end

/-- Only numbers are bound in another form. The parameters of a filter are those of its comparisons,
one behind the other. Those of a comparison that neither matches a pattern nor checks for null are
its value, or the two bounds of a range: with the same lists at every depth, tuples as lists, each
float whose value is a natural number below 10²¹ as this integer, and any other leaf as it is; so no
such float is left. A check for null binds its value as it is. What is bound is not changed when it
is bound again, and the floats that are bound as integers are those whose plain text is digits
alone, which are the digits of the integer. -/
theorem params_coerced (config : Config) (dialect : Option String) {f : Filter} {p : Predicate}
    (h : ofFilter (config.resolve dialect) f = .ok p) :
    (∃ parts, List.Forall₂ (Comparison.Binds (config.resolve dialect)) f.comparisons parts ∧
      p.params = parts.flatten) ∧
    (∀ (c : Comparison) params, c.Binds (config.resolve dialect) params →
      Comparison.family c.operator ≠ .pattern → Comparison.family c.operator ≠ .nullCheck →
      ∀ v ∈ params, ∀ x n, (Value.float x).Within v → ¬ x.IsPlain n) ∧
    (∀ v : Value, v.coerced.coerced = v.coerced) ∧
    ∀ x, Json.IsDigits (Value.plainFloat x).toList ↔
      ∃ n, x.IsPlain n ∧ (Value.plainFloat x).toList = Nat.toDigits 10 n :=
  ⟨exists_binds h,
    fun _ _ hbinds hpattern hnull _ hv _ n hx => hbinds.not_isPlain hpattern hnull hv hx n,
    Value.coerced_coerced, Value.isDigits_plainFloat_iff⟩

def eighteen : Value := .float (.finite false ⟨18 * 2 ^ 48, -48, by decide⟩)

def twoAndHalf : Value := .float (.finite false ⟨5 * 2 ^ 50, -51, by decide⟩)

def limit : Value := .float (.finite false ⟨5 ^ 21 * 2 ^ 4, 17, by decide⟩)

def numbers : Filter :=
  .group [.comparison ⟨"a", "=", .float (.finite true .zero), ""⟩,
    .comparison ⟨"b", "NOT IN", .tuple [.list [eighteen, .bool true], limit, .float .nan], ""⟩,
    .comparison ⟨"c", "BETWEEN", .tuple [twoAndHalf, eighteen], ""⟩,
    .comparison ⟨"d", "IS", eighteen, ""⟩, .comparison ⟨"e", "IN", eighteen, ""⟩,
    .comparison ⟨"f", "LIKE", eighteen, ""⟩]

theorem params_coerced_numbers :
    let params := [.int 0, .list [.list [.int 18, .bool true], limit, .float .nan], twoAndHalf,
      .int 18, eighteen, eighteen]
    ofFilter (({} : Config).resolve none) numbers = .ok ⟨["(", "a", "=", "?", "OR", "b", "NOT IN",
        "?", "OR", "(", "c", "BETWEEN", "?", "AND", "?", ")", "OR", "d", "IS", "?", "OR",
        "LOWER(f)", "LIKE", "?", ")"], params⟩ ∧
      ∃ parts, List.Forall₂ (Comparison.Binds (({} : Config).resolve none))
        numbers.comparisons parts ∧ params = parts.flatten := by
  intro params
  -- The denominator of the zero, 2¹⁰⁷⁴, is not to be computed.
  have hint : (Binary64.finite true .zero).IsInt 0 := by
    rw [Binary64.IsInt, Int.zero_mul]
    rfl
  have hzero : (Value.float (.finite true .zero)).coerced = .int 0 :=
    Value.coerced_of_isPlain ⟨hint, by decide⟩
  have h : ofFilter (({} : Config).resolve none) numbers = .ok ⟨["(", "a", "=", "?", "OR", "b",
      "NOT IN", "?", "OR", "(", "c", "BETWEEN", "?", "AND", "?", ")", "OR", "d", "IS", "?", "OR",
      "LOWER(f)", "LIKE", "?", ")"], [(Value.float (.finite true .zero)).coerced,
        .list [.list [.int 18, .bool true], limit, .float .nan], twoAndHalf, .int 18, eighteen,
        eighteen]⟩ :=
    rfl
  rw [hzero] at h
  obtain ⟨hparts, -⟩ := params_coerced {} none h
  exact ⟨h, hparts⟩

end Predicate

end Paging
