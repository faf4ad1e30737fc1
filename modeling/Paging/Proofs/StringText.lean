import Paging.Proofs.Joined
import Paging.Proofs.Scalar

/-! Strings as JSON. In both written forms every letter, escaped or not, reads back as itself, so a
string reads back up to its closing quote. The canonical form alone cannot tell the two halves of a
surrogate pair, one directly behind the other, from the character that they make up. -/
namespace Paging

namespace Json

/-- The escape of a second half does not stand here. -/
def NoLow (r : List Letter) : Prop :=
  ∀ s, r = .char '\\' :: .char 'u' :: s → ∃ n t, unit? s = some (n, t) ∧ isLowSurrogate n = false

/-- In front of `r`, the written form `cs` is read as one letter. -/
structure ReadsLetter (cs : List Letter) (c : Letter) (r : List Letter) : Prop where
  ne_nil : cs ≠ []
  reads : ∀ start fuel p,
    ∃ p', readChars start (fuel + 1) (cs ++ r) p = prepend c (readChars start fuel r p')

theorem hexValue?_hexDigit {k : Nat} (hk : k < 16) : hexValue? (Text.hexDigit k) = some k := by
  have hall : ∀ k : Fin 16, hexValue? (Text.hexDigit k) = some k.val := by decide
  exact hall ⟨k, hk⟩

theorem unit?_hex {n : Nat} (hn : n < 0x10000) {r : List Letter} (hr : r ≠ []) :
    unit? (letters (Text.hex 4 n) ++ r) = some (n, r) := by
  have hdigit (k : Nat) : hexValue? (Text.hexDigit (k % 16)) = some (k % 16) :=
    hexValue?_hexDigit (Nat.mod_lt k (by decide))
  cases r with
  | nil => exact absurd rfl hr
  | cons x r =>
    have hsum : ((n / 16 / 16 / 16 % 16 * 16 + n / 16 / 16 % 16) * 16 + n / 16 % 16) * 16 +
        n % 16 = n := by omega
    simp [Text.hex, unit?, hdigit, hsum]

theorem noLow_of_head {c : Letter} (hc : c ≠ '\\') (r : List Letter) : NoLow (c :: r) :=
  fun _ h => absurd (List.cons.inj h).1 hc

theorem noLow_unitEscape {n : Nat} (hn : n < 0x10000) (hlow : isLowSurrogate n = false)
    {r : List Letter} (hr : r ≠ []) : NoLow (unitEscape n ++ r) := by
  intro s hs
  obtain rfl : letters (Text.hex 4 n) ++ r = s := by simpa [unitEscape] using hs
  exact ⟨n, r, unit?_hex hn hr, hlow⟩

theorem noLow_simple {e : Letter} (he : e ≠ 'u') (r : List Letter) :
    NoLow (.char '\\' :: e :: r) :=
  fun _ h => absurd (List.cons.inj (List.cons.inj h).2).1 he

theorem readsLetter_plain {c : Letter} (hquote : c ≠ '\x22') (hescape : c ≠ '\\')
    (hcontrol : ¬ c.toNat < 32) (r : List Letter) : ReadsLetter [c] c r := by
  refine ⟨List.cons_ne_nil _ _, fun start fuel p => ⟨p + 1, ?_⟩⟩
  rw [List.singleton_append, readChars.eq_def]
  simp [hquote, hescape, hcontrol]

theorem ne_of_simpleEscape? {e c : Letter} (he : simpleEscape? e = some c) : e ≠ 'u' := by
  rintro rfl
  cases he

theorem readsLetter_simple {e c : Letter} (he : simpleEscape? e = some c) (r : List Letter) :
    ReadsLetter ['\\', e] c r := by
  refine ⟨List.cons_ne_nil _ _, fun start fuel p => ⟨p + 2, ?_⟩⟩
  rw [List.cons_append, List.singleton_append, readChars]
  · simp [he]
  · exact fun h => absurd h (ne_of_simpleEscape? he)

theorem readsLetter_unit {c : Letter} (hc : c.toNat < 0x10000) {r : List Letter} (hr : r ≠ [])
    (hlow : c.IsHigh → NoLow r) : ReadsLetter (unitEscape c.toNat) c r := by
  refine ⟨List.cons_ne_nil _ _, fun start fuel p => ⟨p + 6, ?_⟩⟩
  rw [unitEscape, List.cons_append, List.cons_append, readChars]
  rw [if_neg (by decide), if_pos rfl]
  simp only [unit?_hex hc hr, Letter.ofNat_toNat]
  split
  · -- A first half is joined with the second one only where that is escaped behind it.
    rename_i s hhigh
    obtain ⟨n, t, hunit, hn⟩ := hlow hhigh s rfl
    split
    · rfl
    · simp [hunit, hn]
  · rfl

theorem readsLetter_pair {high low : Nat} (hhigh : isHighSurrogate high = true)
    (hlow : isLowSurrogate low = true) {r : List Letter} (hr : r ≠ []) :
    ReadsLetter (unitEscape high ++ unitEscape low) (pairLetter high low) r := by
  have hhigh' := hhigh
  have hlow' := hlow
  simp only [isHighSurrogate, isLowSurrogate, Bool.and_eq_true, decide_eq_true_eq] at hhigh' hlow'
  have hfirst : unit? (letters (Text.hex 4 high) ++
      (.char '\\' :: .char 'u' :: (letters (Text.hex 4 low) ++ r))) =
      some (high, .char '\\' :: .char 'u' :: (letters (Text.hex 4 low) ++ r)) :=
    unit?_hex (by omega) (by simp)
  have hsecond : unit? (letters (Text.hex 4 low) ++ r) = some (low, r) := unit?_hex (by omega) hr
  have hlong : ¬ (letters (Text.hex 4 low) ++ r).length < 5 := by
    have hpos := List.length_pos_iff.mpr hr
    simp only [Text.hex, List.length_append, length_letters, List.length_cons, List.length_nil]
    omega
  refine ⟨List.cons_ne_nil _ _, fun start fuel p => ⟨p + 12, ?_⟩⟩
  simp only [unitEscape, List.cons_append, List.append_assoc]
  rw [readChars]
  simp [hfirst, hhigh, hsecond, hlow, hlong, -List.length_append]

theorem pairLetter_halves {c : Letter} (hc : ¬ c.toNat < 0x10000) :
    isHighSurrogate (0xd800 + (c.toNat - 0x10000) / 1024) = true ∧
      isLowSurrogate (0xdc00 + (c.toNat - 0x10000) % 1024) = true ∧
      pairLetter (0xd800 + (c.toNat - 0x10000) / 1024) (0xdc00 + (c.toNat - 0x10000) % 1024) =
        c := by
  have hlt := c.toNat_lt
  refine ⟨?_, ?_, ?_⟩
  · simp only [isHighSurrogate, Bool.and_eq_true, decide_eq_true_eq]
    omega
  · simp only [isLowSurrogate, Bool.and_eq_true, decide_eq_true_eq]
    omega
  · have hsum : 0x10000 + (0xd800 + (c.toNat - 0x10000) / 1024 - 0xd800) * 1024 +
        (0xdc00 + (c.toNat - 0x10000) % 1024 - 0xdc00) = c.toNat := by omega
    rw [pairLetter, hsum, Letter.ofNat_toNat]

theorem not_surrogate {n : Nat} (hn : n < 0xd800) :
    isHighSurrogate n = false ∧ isLowSurrogate n = false := by
  simp only [isHighSurrogate, isLowSurrogate, Bool.and_eq_false_iff, decide_eq_false_iff_not]
  omega

/-- A control character has a short escape, or is escaped like any other letter. -/
theorem controlEscape_cases (c : Letter) :
    (∃ e, simpleEscape? e = some c ∧ controlEscape c = [.char '\\', e]) ∨
      controlEscape c = unitEscape c.toNat := by
  unfold controlEscape
  split_ifs with hn hr ht hb hf
  · exact Or.inl ⟨'n', by rw [hn]; rfl, rfl⟩
  · exact Or.inl ⟨'r', by rw [hr]; rfl, rfl⟩
  · exact Or.inl ⟨'t', by rw [ht]; rfl, rfl⟩
  · exact Or.inl ⟨'b', by rw [hb]; rfl, rfl⟩
  · exact Or.inl ⟨'f', by rw [hf]; rfl, rfl⟩
  · exact Or.inr rfl

theorem readsLetter_control {c : Letter} (hc : c.toNat < 32) {r : List Letter} (hr : r ≠ []) :
    ReadsLetter (controlEscape c) c r := by
  rcases controlEscape_cases c with ⟨e, he, hescape⟩ | hescape
  · rw [hescape]
    exact readsLetter_simple he r
  · rw [hescape]
    refine readsLetter_unit (by omega) hr fun hhigh => ?_
    rw [Letter.IsHigh, (not_surrogate (by omega)).1] at hhigh
    cases hhigh

theorem readsLetter_stringChar {f : Form} {c : Letter} {r : List Letter}
    (h : c ≠ '\x22' → c ≠ '\\' → ReadsLetter (f.character c) c r) :
    ReadsLetter (f.stringChar c) c r := by
  unfold Form.stringChar
  split
  · rename_i hc
    rcases hc with rfl | rfl
    · exact readsLetter_simple rfl r
    · exact readsLetter_simple rfl r
  · rename_i hc
    exact h (fun e => hc (Or.inl e)) (fun e => hc (Or.inr e))

/-! ### Texts -/

/-- Every letter is read back from its written form where it stands. -/
inductive Legible (written : Letter → List Letter) : List Letter → Prop
  | nil : Legible written []
  | cons {c : Letter} {cs : List Letter} :
    (∀ r, ReadsLetter (written c) c (cs.flatMap written ++ .char '\x22' :: r)) →
    Legible written cs → Legible written (c :: cs)

theorem stored_legible (cs : List Letter) : Legible stored.stringChar cs := by
  induction cs with
  | nil => exact .nil
  | cons c cs ih =>
    refine .cons (fun r => readsLetter_stringChar fun hquote hescape => ?_) ih
    show ReadsLetter (controlsOnly c) c _
    unfold controlsOnly
    split
    · rename_i hc
      exact readsLetter_control hc (by simp)
    · rename_i hc
      exact readsLetter_plain hquote hescape hc _

/-- Only a second half is written with the escape of one in front. -/
theorem noLow_stringChar {c : Letter} (hc : ¬ c.IsLow) {r : List Letter} (hr : r ≠ []) :
    NoLow (canonical.stringChar c ++ r) := by
  unfold Form.stringChar
  split
  · rename_i h
    rcases h with rfl | rfl <;> exact noLow_simple (by decide) r
  rename_i h
  have hescape : c ≠ '\\' := fun e => h (Or.inr e)
  show NoLow (asciiOnly c ++ r)
  unfold asciiOnly
  extract_lets n
  split_ifs with hascii hcontrol hunit
  · exact noLow_of_head hescape r
  · rcases controlEscape_cases c with ⟨e, he, hwritten⟩ | hwritten
    · exact hwritten ▸ noLow_simple (ne_of_simpleEscape? he) r
    · exact hwritten ▸ noLow_unitEscape (by omega) (not_surrogate (by omega)).2 hr
  · exact noLow_unitEscape hunit (by simpa [Letter.IsLow] using hc) hr
  · rw [List.append_assoc]
    have hhigh := (pairLetter_halves hunit).1
    refine noLow_unitEscape ?_ ?_ (List.append_ne_nil_of_right_ne_nil _ hr)
    all_goals
      simp only [isHighSurrogate, isLowSurrogate, Bool.and_eq_true, decide_eq_true_eq,
        Bool.and_eq_false_iff, decide_eq_false_iff_not] at hhigh ⊢
      omega

theorem canonical_legible {cs : List Letter} (h : cs.IsChain Letter.Apart) :
    Legible canonical.stringChar cs := by
  induction cs with
  | nil => exact .nil
  | cons c cs ih =>
    obtain ⟨hhead, htail⟩ := List.isChain_cons.mp h
    refine .cons (fun r => readsLetter_stringChar fun hquote hescape => ?_) (ih htail)
    have hr : cs.flatMap canonical.stringChar ++ .char '\x22' :: r ≠ [] := by simp
    show ReadsLetter (asciiOnly c) c _
    unfold asciiOnly
    extract_lets n
    split_ifs with hascii hcontrol hunit
    · exact readsLetter_plain hquote hescape (by omega) _
    · exact readsLetter_control hcontrol hr
    · refine readsLetter_unit hunit hr fun hhigh => ?_
      cases cs with
      | nil => exact noLow_of_head (by decide) r
      | cons d ds =>
        have hlow : ¬ d.IsLow := fun hd => hhead d rfl ⟨hhigh, hd⟩
        rw [List.flatMap_cons, List.append_assoc]
        exact noLow_stringChar hlow (by simp)
    · obtain ⟨hhigh, hlow, hpair⟩ := pairLetter_halves hunit
      have hread := readsLetter_pair hhigh hlow hr
      rwa [hpair] at hread

variable {f : Form} {cs : List Letter}

theorem readChars_flatMap (hcs : Legible f.stringChar cs) (start : Nat) (r : List Letter)
    (fuel : Nat) (hfuel : cs.length < fuel) (p : Nat) :
    ∃ q, readChars start fuel (cs.flatMap f.stringChar ++ .char '\x22' :: r) p =
      .ok (cs, ⟨r, q⟩) := by
  induction hcs generalizing fuel p with
  | nil =>
    obtain ⟨fuel, rfl⟩ := Nat.exists_eq_add_one_of_ne_zero (Nat.ne_zero_of_lt hfuel)
    exact ⟨p + 1, by simp [readChars]⟩
  | @cons c cs hc hcs ih =>
    obtain ⟨fuel, rfl⟩ := Nat.exists_eq_add_one_of_ne_zero (Nat.ne_zero_of_lt hfuel)
    obtain ⟨p', hchar⟩ := (hc r).reads start fuel p
    obtain ⟨q, hrest⟩ := ih fuel (by simpa using hfuel) p'
    refine ⟨q, ?_⟩
    rw [List.flatMap_cons, List.append_assoc, hchar, hrest]
    rfl

theorem length_le_flatMap (hcs : Legible f.stringChar cs) :
    cs.length ≤ (cs.flatMap f.stringChar).length := by
  induction hcs with
  | nil => exact Nat.le_refl 0
  | cons hc hcs ih =>
    have hpos := List.length_pos_iff.mpr (hc []).ne_nil
    rw [List.flatMap_cons, List.length_append, List.length_cons]
    omega

/-- A string reads back up to its closing quote, from behind its opening one. -/
theorem reads_string {s : Text} (hs : Legible f.stringChar s.toList) (r : List Letter) (p : Nat) :
    Reads (readString ⟨s.toList.flatMap f.stringChar ++ .char '\x22' :: r, p⟩) (.ok s) r := by
  have hfuel :
      s.toList.length < (s.toList.flatMap f.stringChar ++ .char '\x22' :: r).length + 1 := by
    have hlen := length_le_flatMap hs
    simp only [List.length_append]
    omega
  obtain ⟨q, hread⟩ := readChars_flatMap hs (p - 1) r _ hfuel p
  refine ⟨q, ?_⟩
  simp only [readString, hread, bind, Except.bind, pure, Except.pure, Text.ofList_toList,
    Except.map]

end Json

end Paging
