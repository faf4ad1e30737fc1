import Paging.Proofs.NumberText
import Paging.Proofs.Vocabulary
import Paging.Sql.Statement

/-! The window of a page. Whatever is asked for, page, size and offset are numbers that a database
can take, and what is asked for is heeded as far as it is such a number. -/
namespace Paging

theorem Query.window_of_ofDescriptor {cfg : Config} {d : Descriptor} {q : Query}
    (h : ofDescriptor cfg d = .ok q) : q.limit = d.size ∧ q.offset = d.offset := by
  simp only [ofDescriptor, bind, Except.bind, pure, Except.pure] at h
  split at h
  · cases h
  · cases h
    exact ⟨rfl, rfl⟩

theorem Sql.Statement.window_of_fetch {b : Base} {q : Query} {fields : List Text}
    {st : Statement} (h : fetch b q fields = .ok st) :
    st.window = if 0 < q.limit then some (q.limit, q.offset) else none := by
  simp only [fetch, bind, Except.bind, pure, Except.pure] at h
  split at h
  · cases h
  · cases h
    rfl

namespace Descriptor

/-- The whole number that a parameter asks for: an integer, a float that is one, or a text that
writes one. A flag asks for nothing. -/
inductive Asks : Value → ℤ → Prop
  | int (n : ℤ) : Asks (.int n) n
  | float {x : Decimal.Binary64} {n : ℤ} : x.IsInt n → Asks (.float x) n
  | text {s : Text} {n : ℤ} : Decimal.Writes s.toList n → Asks (.text s) n
  | bytes {b : List UInt8} {n : ℤ} :
      Decimal.Writes (Text.Utf8.decodeDropping b : Text).toList n → Asks (.bytes b) n

theorem textNumber?_eq_some_iff {s : Text} {n : ℤ} :
    textNumber? s = some n ↔ Decimal.Writes s.toList n := by
  rw [textNumber?, Decimal.readInt?_strip_eq_some_iff]

theorem asks_iff {v : Value} {n : ℤ} : Asks v n ↔ rawNumber? v = some n := by
  constructor
  · rintro (_ | h | h | h) <;> rw [rawNumber?]
    · exact Decimal.Binary64.toInt?_eq_some_iff.mpr h
    · exact textNumber?_eq_some_iff.mpr h
    · exact textNumber?_eq_some_iff.mpr h
  · intro h
    cases v with
    | int m =>
      obtain rfl : m = n := Option.some.inj h
      exact .int m
    | float x => exact .float (Decimal.Binary64.toInt?_eq_some_iff.mp h)
    | text s => exact .text (textNumber?_eq_some_iff.mp h)
    | bytes b => exact .bytes (textNumber?_eq_some_iff.mp h)
    | _ => cases h

theorem Asks.unique {v : Value} {m n : ℤ} (hm : Asks v m) (hn : Asks v n) : m = n :=
  Option.some.inj ((asks_iff.mp hm).symm.trans (asks_iff.mp hn))

/-- Numbers that a database takes and that are no less than one. -/
theorem positive?_eq_some_iff {v : Value} {n : ℤ} :
    positive? v = some n ↔ Asks v n ∧ 1 ≤ n ∧ n ≤ 2 ^ 63 - 1 := by
  have hmax : maxNumber.natAbs = 2 ^ 63 - 1 := rfl
  simp only [positive?, number?, Option.filter_eq_some_iff, asks_iff, hmax, decide_eq_true_eq,
    and_assoc]
  refine and_congr_right fun _ => ?_
  omega

/-! ### What is made of a parameter -/

/-- The number `n` is what a parameter asks for if that is admitted, else the default. -/
def Heeds (v : Value) (P : ℤ → Prop) (default n : ℤ) : Prop :=
  (∃ m, Asks v m ∧ P m ∧ n = m) ∨ (∀ m, Asks v m → ¬ P m) ∧ n = default

section

variable {v : Value} {P : ℤ → Prop} {default n : ℤ}

theorem heeds_getD {o : Option ℤ} (h : ∀ m, o = some m ↔ Asks v m ∧ P m) (default : ℤ) :
    Heeds v P default (o.getD default) := by
  cases o with
  | some m =>
    obtain ⟨hasks, hfits⟩ := (h m).mp rfl
    exact Or.inl ⟨m, hasks, hfits, rfl⟩
  | none =>
    refine Or.inr ⟨fun m hasks hfits => ?_, rfl⟩
    cases (h m).mpr ⟨hasks, hfits⟩

theorem Heeds.holds (h : Heeds v P default n) (hdefault : P default) : P n := by
  obtain ⟨m, -, hm, rfl⟩ | ⟨-, rfl⟩ := h
  · exact hm
  · exact hdefault

theorem Heeds.eq {m : ℤ} (h : Heeds v P default n) (hasks : Asks v m) (hm : P m) :
    n = m := by
  obtain ⟨m', hasks', -, rfl⟩ | ⟨hnone, -⟩ := h
  · exact hasks'.unique hasks
  · exact absurd hm (hnone m hasks)

theorem Heeds.eq_default {m : ℤ} (h : Heeds v P default n) (hasks : Asks v m)
    (hm : ¬ P m) : n = default := by
  obtain ⟨m', hasks', hm', -⟩ | ⟨-, h⟩ := h
  · exact absurd (hasks'.unique hasks ▸ hm') hm
  · exact h

end

def FitsSize (n : ℤ) : Prop := 1 ≤ n ∧ n ≤ 2 ^ 63 - 1

def FitsPage (size n : ℤ) : Prop := 1 ≤ n ∧ n ≤ 2 ^ 63 - 1 ∧ (n - 1) * size ≤ 2 ^ 63 - 1

instance (n : ℤ) : Decidable (FitsSize n) := inferInstanceAs (Decidable (_ ∧ _))

instance (size n : ℤ) : Decidable (FitsPage size n) := inferInstanceAs (Decidable (_ ∧ _ ∧ _))

theorem heeds_sizeOf (cfg : Config) (v : Value) :
    Heeds v FitsSize (if 0 < cfg.defaultSize then cfg.defaultSize else 10) (sizeOf cfg v) :=
  heeds_getD (fun _ => positive?_eq_some_iff) _

theorem heeds_pageOf (size : ℤ) (v : Value) : Heeds v (FitsPage size) 1 (pageOf size v) := by
  refine heeds_getD (fun n => ?_) 1
  have hmax : maxNumber = 2 ^ 63 - 1 := rfl
  rw [Option.filter_eq_some_iff, positive?_eq_some_iff, hmax, decide_eq_true_eq, FitsPage,
    and_assoc, and_assoc]

theorem one_le_size (cfg : Config) (r : Request) : 1 ≤ (ofRequest cfg r).size := by
  have hdefault : 1 ≤ if 0 < cfg.defaultSize then cfg.defaultSize else 10 := by
    split <;> omega
  obtain ⟨m, -, ⟨hm, -⟩, hsize⟩ | ⟨-, hsize⟩ := heeds_sizeOf cfg (r.parameters cfg).size
  · exact hm.trans_eq hsize.symm
  · exact hdefault.trans_eq hsize.symm

theorem one_le_page (cfg : Config) (r : Request) : 1 ≤ (ofRequest cfg r).page :=
  ((heeds_pageOf (ofRequest cfg r).size (r.parameters cfg).page).holds
    ⟨le_rfl, by norm_num, by norm_num⟩).1

/-- The window fits a database, and what is asked for is heeded. For every request, page, size and
offset of the descriptor are numbers of 64 bits with a sign; they are those of its query, and the
query is fetched with a limit of at least one. The size is the number that is asked for if a
database can take it, else the default. The page is the number that is asked for if a database can
take it and its offset, else the first. -/
theorem window_fits (cfg : Config) (hdefault : cfg.defaultSize ≤ 2 ^ 63 - 1) (r : Request) :
    let asked := r.parameters cfg
    let d := ofRequest cfg r
    (1 ≤ d.page ∧ d.page ≤ 2 ^ 63 - 1) ∧ (1 ≤ d.size ∧ d.size ≤ 2 ^ 63 - 1) ∧
    (0 ≤ (d.page - 1) * d.size ∧ (d.page - 1) * d.size ≤ 2 ^ 63 - 1) ∧
    (∀ q, Query.ofDescriptor cfg d = .ok q →
      q.limit = d.size ∧ q.offset = (d.page - 1) * d.size ∧
      ∀ b fields st, Sql.Statement.fetch b q fields = .ok st →
        st.window = some (q.limit, q.offset)) ∧
    (cfg.Untemplated → ∃ q, Query.ofDescriptor cfg d = .ok q) ∧
    Heeds asked.size FitsSize (if 0 < cfg.defaultSize then cfg.defaultSize else 10) d.size ∧
    Heeds asked.page (FitsPage d.size) 1 d.page := by
  intro asked d
  have hsize : Heeds asked.size FitsSize (if 0 < cfg.defaultSize then cfg.defaultSize else 10)
    d.size := heeds_sizeOf cfg asked.size
  have hpage : Heeds asked.page (FitsPage d.size) 1 d.page := heeds_pageOf d.size asked.page
  have hdefaultFits : FitsSize (if 0 < cfg.defaultSize then cfg.defaultSize else 10) := by
    rw [FitsSize]
    split <;> omega
  obtain ⟨hlow, hhigh⟩ : FitsSize d.size := hsize.holds hdefaultFits
  obtain ⟨hfirst, hlast, hoffset⟩ : FitsPage d.size d.page :=
    hpage.holds ⟨le_rfl, by norm_num, by norm_num⟩
  have hpositive : 0 ≤ (d.page - 1) * d.size := mul_nonneg (by omega) (by omega)
  refine ⟨⟨hfirst, hlast⟩, ⟨hlow, hhigh⟩, ⟨hpositive, hoffset⟩, ?_, ?_, hsize, hpage⟩
  · intro q hq
    obtain ⟨hlimit, hskip⟩ := Query.window_of_ofDescriptor hq
    refine ⟨hlimit, hskip, fun b fields st hst => ?_⟩
    rw [Sql.Statement.window_of_fetch hst, if_pos (by omega)]
  · intro hcfg
    obtain ⟨p, hp, -⟩ := Predicate.inVocabulary_ofInput hcfg asked.filters
    exact ⟨_, Query.ofDescriptor_eq hp⟩

/-- The last page whose offset fits, asked for in a text, and the one behind it, which counts as the
first; the sizes are a float and bytes. -/
theorem window_fits_last :
    let cfg : Config := { defaultSize := 2 ^ 63 - 1 }
    let request (page size : Value) : Request := .mapping [("page", page), ("size", size)]
    let last := ofRequest cfg
      (request (.text " +922_337_203_685_477_581\n") (.float (.ofDecimal false 10 0)))
    let behind := ofRequest cfg (request (.int 922337203685477582) (.bytes [0x31, 0xff, 0x30]))
    cfg.defaultSize ≤ 2 ^ 63 - 1 ∧ last.size = 10 ∧ last.page = 922337203685477581 ∧
      behind.size = 10 ∧ behind.page = 1 := by
  intro cfg request last behind
  have hdefault : cfg.defaultSize ≤ 2 ^ 63 - 1 := le_rfl
  obtain ⟨-, -, -, -, -, hsize, hpage⟩ := window_fits cfg hdefault
    (request (.text " +922_337_203_685_477_581\n") (.float (.ofDecimal false 10 0)))
  obtain ⟨-, -, -, -, -, hsize', hpage'⟩ := window_fits cfg hdefault
    (request (.int 922337203685477582) (.bytes [0x31, 0xff, 0x30]))
  have hten : last.size = 10 := hsize.eq (asks_iff.mpr (by decide +kernel)) (by decide)
  have hten' : behind.size = 10 := hsize'.eq (asks_iff.mpr (by decide +kernel)) (by decide)
  refine ⟨hdefault, hten, ?_, hten', ?_⟩
  · refine hpage.eq (asks_iff.mpr (by decide +kernel)) ?_
    rw [show (ofRequest cfg _).size = 10 from hten]
    decide
  · refine hpage'.eq_default (m := 922337203685477582) (asks_iff.mpr (by decide +kernel)) ?_
    rw [show (ofRequest cfg _).size = 10 from hten']
    decide

end Descriptor

end Paging
