import Paging.Config
import Paging.Text.Template

/-! Identifiers as they stand in a statement. A dialect without quotes writes a
word; a dialect with quotes doubles each quote inside, so that reading on from the
opening quote ends at the last one and nowhere before. A column is an identifier,
alone or in the gap of its dialect's template. -/
namespace Paging

def IsWordChar : Letter → Prop
  | .char c => ('A' ≤ c ∧ c ≤ 'Z') ∨ ('a' ≤ c ∧ c ≤ 'z') ∨ ('0' ≤ c ∧ c ≤ '9') ∨ c = '_'
  | .half _ => False

instance : DecidablePred IsWordChar
  | .char _ => inferInstanceAs (Decidable (_ ∨ _ ∨ _ ∨ _))
  | .half _ => inferInstanceAs (Decidable False)

/-- Every occurrence of the mark is doubled. -/
inductive Doubled (mark : Letter) : List Letter → Prop
  | nil : Doubled mark []
  | other {c : Letter} {r : List Letter} : c ≠ mark → Doubled mark r → Doubled mark (c :: r)
  | pair {r : List Letter} : Doubled mark r → Doubled mark (mark :: mark :: r)

/-- What follows a quoted identifier that is read from behind its opening mark: two marks
belong to it, a single one ends it. -/
def afterQuote (mark : Letter) : List Letter → Option (List Letter)
  | [] => none
  | [c] => if c = mark then some [] else none
  | c :: d :: r =>
    if c = mark then if d = mark then afterQuote mark r else some (d :: r)
    else afterQuote mark (d :: r)

theorem Doubled.afterQuote {mark : Letter} {body : List Letter} (h : Doubled mark body)
    (rest : List Letter) (hrest : rest.head? ≠ some mark) :
    afterQuote mark (body ++ mark :: rest) = some rest := by
  induction h with
  | nil =>
    cases rest with
    | nil => simp [Paging.afterQuote]
    | cons d r =>
      have hd : d ≠ mark := by simpa using hrest
      simp [Paging.afterQuote, hd]
  | @other c r hc _ ih =>
    cases r with
    | nil => simpa [Paging.afterQuote, hc] using ih
    | cons d r => simpa [Paging.afterQuote, hc] using ih
  | pair _ ih => simpa [Paging.afterQuote] using ih

/-- An identifier as a dialect writes it: a word, or a text between quotes in which
each quote is doubled. -/
def IsIdentifier (d : Dialect) (s : Text) : Prop :=
  match d.quoting with
  | none => s ≠ "" ∧ ∀ c ∈ s.toList, IsWordChar c
  | some q => ∃ body, s.toList = q.mark :: body ++ [q.mark] ∧ Doubled q.mark body

/-- A column as it stands in a predicate: an identifier, or one in the dialect's template. -/
def IsColumn (d : Dialect) (t : Text) : Prop :=
  ∃ name, IsIdentifier d name ∧ (t = name ∨ Text.Template.fill d.fieldWrapper name = .ok t)

theorem Dialect.isWordChar_of_isBare {c : Letter} (h : isBare c = true) : IsWordChar c := by
  cases c with
  | half n => exact absurd h (by simp [isBare, Letter.isAlphanum, Letter.has])
  | char c =>
    have hupper : c.isUpper = true → 'A' ≤ c ∧ c ≤ 'Z' := fun h => of_decide_eq_true h
    have hlower : c.isLower = true → 'a' ≤ c ∧ c ≤ 'z' := fun h =>
      (Bool.and_eq_true _ _ ▸ h).imp of_decide_eq_true of_decide_eq_true
    have hdigit : c.isDigit = true → '0' ≤ c ∧ c ≤ '9' := fun h =>
      (Bool.and_eq_true _ _ ▸ h).imp of_decide_eq_true of_decide_eq_true
    have hbare : (((c.isUpper || c.isLower) || c.isDigit) || c == '_') = true := by
      rwa [isBare, Letter.beq_char] at h
    simp only [Bool.or_eq_true, beq_iff_eq] at hbare
    rcases hbare with ((h | h) | h) | h
    · exact Or.inl (hupper h)
    · exact Or.inr (Or.inl (hlower h))
    · exact Or.inr (Or.inr (Or.inl (hdigit h)))
    · exact Or.inr (Or.inr (Or.inr h))

theorem Quoting.doubled_flatMap (q : Quoting) (cs : List Letter) :
    Doubled q.mark (cs.flatMap q.character) := by
  induction cs with
  | nil => exact .nil
  | cons c cs ih =>
    rw [List.flatMap_cons, Quoting.character]
    by_cases hc : c = q.mark
    · subst hc
      simpa using Doubled.pair ih
    · split
      · exact .other hc (.other hc ih)
      · exact .other hc ih

/-- What a dialect writes of an identifier has the form of one unless nothing is left of it. -/
theorem Dialect.isIdentifier_quote (d : Dialect) (s : Text) (h : d.quote s ≠ "") :
    IsIdentifier d (d.quote s) := by
  rw [IsIdentifier]
  rw [Dialect.quote] at h ⊢
  cases hq : d.quoting with
  | none =>
    simp only [hq] at h ⊢
    refine ⟨h, ?_⟩
    intro c hc
    rw [Text.toList_ofList] at hc
    exact isWordChar_of_isBare (List.mem_filter.mp hc).2
  | some q =>
    exact ⟨s.toList.flatMap q.character, by simp [Quoting.quote], q.doubled_flatMap _⟩

namespace Text.Template

theorem fillFrom_cons (text : Text) {c : Char} (hc : c ≠ '%') (fuel index : Nat) (used : Bool)
    (r : List Char) :
    fillFrom text (fuel + 1) index used (c :: r) =
      (fillFrom text fuel (index + 1) used r).map (.char c :: ·) := by
  rw [fillFrom.eq_def]
  simp [hc]

theorem fillFrom_append (text : Text) (plain : List Char) (h : '%' ∉ plain) (fuel index : Nat)
    (used : Bool) (r : List Char) :
    fillFrom text (plain.length + fuel) index used (plain ++ r) =
      (fillFrom text fuel (index + plain.length) used r).map (letters plain ++ ·) := by
  induction plain generalizing index with
  | nil => cases hr : fillFrom text fuel index used r <;> simp [hr, Except.map]
  | cons c plain ih =>
    have hc : c ≠ '%' := fun e => h (by simp [e])
    have hplain : '%' ∉ plain := fun hmem => h (List.mem_cons_of_mem c hmem)
    have hlen : (c :: plain).length + fuel = (plain.length + fuel) + 1 := by
      simp only [List.length_cons]; omega
    rw [hlen, List.cons_append, fillFrom_cons text hc, ih hplain]
    have hindex : index + 1 + plain.length = index + (c :: plain).length := by
      simp only [List.length_cons]; omega
    rw [hindex]
    cases fillFrom text fuel (index + (c :: plain).length) used r <;> rfl

theorem fillFrom_gap (text : Text) (fuel index : Nat) (r : List Char) :
    fillFrom text (fuel + 1) index false ('%' :: 's' :: r) =
      (fillFrom text fuel (index + 2) true r).map (text.toList ++ ·) := by
  have hf : field false ('s' :: r) = .ok (⟨false, 0, none⟩, 's', 0, r) := by
    simp [field, isFlag, maxWidth, number, pure, Except.pure]
  rw [fillFrom, if_pos rfl]
  · simp only [hf, bind, Except.bind, convert]
    cases fillFrom text fuel (index + 2) true r <;>
      simp [Layout.apply, Except.map, pure, Except.pure]
  · simp

/-- A template whose one gap is `%s` puts the text between what stands around the gap. -/
theorem fill_gap (pre post : List Char) (hpre : '%' ∉ pre) (hpost : '%' ∉ post) (text : Text) :
    fill (String.ofList (pre ++ '%' :: 's' :: post)) text =
      .ok (Text.ofList (letters pre ++ text.toList ++ letters post)) := by
  have hend (fuel index : Nat) : fillFrom text fuel index true [] = .ok [] := by
    cases fuel <;> simp [fillFrom]
  have hlen : (String.ofList (pre ++ '%' :: 's' :: post)).length =
      pre.length + ((post.length + 1) + 1) := by
    rw [String.length_ofList]; simp
  have hp := fillFrom_append text post hpost 1 (0 + pre.length + 2) true []
  rw [List.append_nil, hend] at hp
  rw [fill, hlen, String.toList_ofList, fillFrom_append text pre hpre, fillFrom_gap, hp]
  simp only [Except.map, List.append_nil, List.append_assoc]

end Text.Template

namespace Dialect

def known : List Dialect := [standard, postgresql, sqlite, mysql, mariadb]

theorem mem_known_iff {d : Dialect} : d ∈ known ↔
    d = standard ∨ d = postgresql ∨ d = sqlite ∨ d = mysql ∨ d = mariadb := by
  simp [known]

theorem ofName_mem_known (name : String) : ofName name ∈ known := by
  rw [ofName]
  split
  · simp [known]
  · rw [table]
    simp only [List.lookup_cons, List.lookup_nil]
    repeat' split
    all_goals simp [known]

theorem sqlDialect_mem_known (cfg : Config) : cfg.sqlDialect ∈ known := by
  unfold Config.sqlDialect ofName?
  split
  · exact ofName_mem_known _
  · simp [known]

theorem fill_fieldWrapper {d : Dialect} (hd : d ∈ known) :
    ∃ r post, (∀ name, Text.Template.fill d.fieldWrapper name =
      .ok (Text.ofList (letters ('L' :: r) ++ name.toList ++ letters post))) ∧
      ' ' ∉ r ∧ ' ' ∉ post ∧ post.head? = some ')' := by
  have h : d.fieldWrapper = "LOWER(%s)" ∨ d.fieldWrapper = "LOWER((%s)::text)" := by
    rcases mem_known_iff.mp hd with rfl | rfl | rfl | rfl | rfl <;>
      simp [standard, postgresql, sqlite, mysql, mariadb]
  rcases h with h | h
  · exact ⟨"OWER(".toList, ")".toList, fun name => h ▸
      Text.Template.fill_gap "LOWER(".toList ")".toList (by decide) (by decide) name,
      by decide, by decide, rfl⟩
  · exact ⟨"OWER((".toList, ")::text)".toList, fun name => h ▸
      Text.Template.fill_gap "LOWER((".toList ")::text)".toList (by decide) (by decide) name,
      by decide, by decide, rfl⟩

def wrap (d : Dialect) (column : Text) : Text :=
  match Text.Template.fill d.fieldWrapper column with
  | .ok t => t
  | .error _ => column

theorem fill_eq_wrap {d : Dialect} (hd : d ∈ known) (column : Text) :
    Text.Template.fill d.fieldWrapper column = .ok (d.wrap column) := by
  obtain ⟨r, post, h, -⟩ := fill_fieldWrapper hd
  simp only [wrap, h]

end Dialect

theorem IsIdentifier.isColumn {d : Dialect} {s : Text} (h : IsIdentifier d s) : IsColumn d s :=
  ⟨s, h, Or.inl rfl⟩

theorem IsIdentifier.isColumn_wrap {d : Dialect} (hd : d ∈ Dialect.known) {s : Text}
    (h : IsIdentifier d s) : IsColumn d (d.wrap s) :=
  ⟨s, h, Or.inr (Dialect.fill_eq_wrap hd s)⟩

theorem IsColumn.exists_cons {d : Dialect} (hd : d ∈ Dialect.known) {t : Text}
    (h : IsColumn d t) :
    ∃ c r, t.toList = c :: r ∧ (IsWordChar c ∨ c = '\x22' ∨ c = '\x60') := by
  obtain ⟨name, hname, rfl | hfill⟩ := h
  · rw [IsIdentifier] at hname
    split at hname
    · obtain ⟨hne, hword⟩ := hname
      cases hl : t.toList with
      | nil => exact absurd (Text.toList_eq_nil_iff.mp hl) hne
      | cons c r => exact ⟨c, r, rfl, Or.inl (hword c (by simp [hl]))⟩
    · rename_i q hq
      obtain ⟨body, hl, -⟩ := hname
      have hmark : q.mark = '\x22' ∨ q.mark = '\x60' := by
        rcases Dialect.mem_known_iff.mp hd with rfl | rfl | rfl | rfl | rfl <;> cases hq <;> simp
      exact ⟨q.mark, body ++ [q.mark], hl, Or.inr hmark⟩
  · obtain ⟨r, post, hw, -⟩ := Dialect.fill_fieldWrapper hd
    rw [hw name] at hfill
    have ht := congrArg Text.toList (Except.ok.inj hfill)
    rw [Text.toList_ofList] at ht
    exact ⟨'L', letters r ++ name.toList ++ letters post, ht.symm, Or.inl (by decide)⟩

theorem IsColumn.ne {d : Dialect} (hd : d ∈ Dialect.known) {t : Text} (h : IsColumn d t) :
    t ≠ "(" ∧ t ≠ "?" := by
  obtain ⟨c, r, ht, hc⟩ := h.exists_cons hd
  constructor
  · rintro rfl
    obtain ⟨rfl, -⟩ : '(' = c ∧ [] = r := by simpa using ht
    exact absurd hc (by decide)
  · rintro rfl
    obtain ⟨rfl, -⟩ : '?' = c ∧ [] = r := by simpa using ht
    exact absurd hc (by decide)

end Paging
