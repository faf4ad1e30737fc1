import Mathlib.Data.List.TakeWhile
import Paging.Proofs.Rounding
import Paging.Proofs.WholeNumber

/-! Whole numbers that a client may write. A text writes one if it holds nothing but blanks, perhaps
a sign, and digits; a float writes one if its value is whole. The readers accept exactly these. -/
namespace Paging

namespace Text

variable {α : Type} {p : α → Bool}

theorem exists_append_trimBy (p : α → Bool) (s : List α) : ∃ front back,
    s = front ++ trimBy p s ++ back ∧ (∀ x ∈ front, p x = true) ∧ ∀ x ∈ back, p x = true := by
  let inner := (s.dropWhile p).reverse
  have hinner : s.dropWhile p = inner.reverse := (List.reverse_reverse _).symm
  refine ⟨s.takeWhile p, (inner.takeWhile p).reverse, ?_, fun x => List.mem_takeWhile_imp, ?_⟩
  · calc s = s.takeWhile p ++ s.dropWhile p := List.takeWhile_append_dropWhile.symm
      _ = s.takeWhile p ++ (inner.takeWhile p ++ inner.dropWhile p).reverse := by
        rw [hinner, List.takeWhile_append_dropWhile]
      _ = s.takeWhile p ++ trimBy p s ++ (inner.takeWhile p).reverse := by
        rw [List.reverse_append, ← List.append_assoc, trimBy]
  · intro x hx
    exact List.mem_takeWhile_imp (List.mem_reverse.mp hx)

theorem dropWhile_append_of_head {front core : List α} (hfront : ∀ x ∈ front, p x = true)
    (hcore : ∀ x ∈ core.head?, p x = false) : (front ++ core).dropWhile p = core := by
  rw [List.dropWhile_append_of_pos hfront]
  cases core with
  | nil => rfl
  | cons x core => rw [List.dropWhile_cons_of_neg (by simp [hcore x rfl])]

theorem trimBy_append {front core back : List α} (hfront : ∀ x ∈ front, p x = true)
    (hback : ∀ x ∈ back, p x = true) (hne : core ≠ []) (hhead : ∀ x ∈ core.head?, p x = false)
    (hlast : ∀ x ∈ core.getLast?, p x = false) : trimBy p (front ++ core ++ back) = core := by
  have hhead' : ∀ x ∈ (core ++ back).head?, p x = false := by
    rw [List.head?_append_of_ne_nil _ hne]
    exact hhead
  have hback' : ∀ x ∈ back.reverse, p x = true := fun x hx => hback x (List.mem_reverse.mp hx)
  have hlast' : ∀ x ∈ core.reverse.head?, p x = false := by
    rw [List.head?_reverse]
    exact hlast
  rw [trimBy, List.append_assoc, dropWhile_append_of_head hfront hhead', List.reverse_append,
    dropWhile_append_of_head hback' hlast', List.reverse_reverse]

theorem isBlank_of_digitValue? {c : Letter} {d : ℕ} (h : digitValue? c = some d) :
    isBlank c = false := by
  have hzeros : ∀ z ∈ zeros, ∀ k < 10, isBlank (Letter.ofNat (z + k)) = false := by decide +kernel
  obtain ⟨z, hz, -⟩ := Option.map_eq_some_iff.mp h
  have hbounds : z ≤ c.toNat ∧ c.toNat < z + 10 := by simpa using List.find?_some hz
  have hc : Letter.ofNat (z + (c.toNat - z)) = c := by
    rw [Nat.add_sub_cancel' hbounds.1, Letter.ofNat_toNat]
  exact hc ▸ hzeros z (List.mem_of_find?_eq_some hz) (c.toNat - z) (by omega)

end Text

namespace Decimal

open Paging.Text

/-- Digits of any script with their values; a single underscore may stand between two of them. -/
inductive Grouped : List Letter → List ℕ → Prop
  | last {c : Letter} {d : ℕ} : digitValue? c = some d → Grouped [c] [d]
  | next {c : Letter} {d : ℕ} {cs : List Letter} {ds : List ℕ} : digitValue? c = some d →
      Grouped cs ds → Grouped (c :: cs) (d :: ds)
  | across {c : Letter} {d : ℕ} {cs : List Letter} {ds : List ℕ} : digitValue? c = some d →
      Grouped cs ds → Grouped (c :: '_' :: cs) (d :: ds)

theorem Grouped.exists_cons {cs : List Letter} {ds : List ℕ} (h : Grouped cs ds) :
    ∃ c r d, cs = c :: r ∧ digitValue? c = some d := by
  cases h with
  | last hc => exact ⟨_, _, _, rfl, hc⟩
  | next hc _ => exact ⟨_, _, _, rfl, hc⟩
  | across hc _ => exact ⟨_, _, _, rfl, hc⟩

theorem Grouped.getLast? {cs : List Letter} {ds : List ℕ} (h : Grouped cs ds) :
    ∃ c d, cs.getLast? = some c ∧ digitValue? c = some d := by
  induction h with
  | last hc => exact ⟨_, _, rfl, hc⟩
  | next _ hrest ih =>
    obtain ⟨c, r, -, rfl, -⟩ := hrest.exists_cons
    simpa [List.getLast?_cons_cons] using ih
  | across _ hrest ih =>
    obtain ⟨c, r, -, rfl, -⟩ := hrest.exists_cons
    simpa [List.getLast?_cons_cons] using ih

theorem Grouped.head_ne {cs : List Letter} {ds : List ℕ} (h : Grouped cs ds) {c : Letter}
    (hc : digitValue? c = none) : cs.head? ≠ some c := by
  obtain ⟨c', r, d, rfl, hc'⟩ := h.exists_cons
  rintro ⟨⟩
  rw [hc] at hc'
  cases hc'

theorem groupedDigits_cons {c : Letter} {cs : List Letter} (hne : cs ≠ [])
    (hcs : cs.head? ≠ some (.char '_')) : groupedDigits (c :: cs) = do
      let d ← digitValue? c
      let ds ← groupedDigits cs
      return d :: ds := by
  refine groupedDigits.eq_4 c cs hne ?_
  rintro r rfl
  exact hcs rfl

theorem grouped_of_groupedDigits {cs : List Letter} {ds : List ℕ} (h : groupedDigits cs = some ds) :
    Grouped cs ds := by
  fun_induction groupedDigits cs generalizing ds with
  | case1 => cases h
  | case2 c =>
    obtain ⟨d, hd, rfl⟩ := Option.map_eq_some_iff.mp h
    exact .last hd
  | case3 c r ih =>
    obtain ⟨d, hd, h⟩ := Option.bind_eq_some_iff.mp h
    obtain ⟨rest, hrest, h⟩ := Option.bind_eq_some_iff.mp h
    cases h
    exact .across hd (ih hrest)
  | case4 c r _ _ ih =>
    obtain ⟨d, hd, h⟩ := Option.bind_eq_some_iff.mp h
    obtain ⟨rest, hrest, h⟩ := Option.bind_eq_some_iff.mp h
    cases h
    exact .next hd (ih hrest)

theorem groupedDigits_eq_some_iff {cs : List Letter} {ds : List ℕ} :
    groupedDigits cs = some ds ↔ Grouped cs ds := by
  refine ⟨grouped_of_groupedDigits, fun h => ?_⟩
  induction h with
  | last hc => simp [groupedDigits, hc]
  | next hc hrest ih =>
    obtain ⟨c', r, -, rfl, -⟩ := hrest.exists_cons
    have hne := hrest.head_ne (c := '_') (by decide)
    rw [groupedDigits_cons (List.cons_ne_nil _ _) hne, hc, ih]
    rfl
  | across hc _ ih =>
    rw [groupedDigits, hc, ih]
    rfl

/-- A text that writes a whole number: blanks, perhaps a sign, digits, blanks. -/
inductive Writes : List Letter → ℤ → Prop
  | intro {front back sign cs : List Letter} {ds : List ℕ} :
      (∀ c ∈ front, isBlank c = true) → (∀ c ∈ back, isBlank c = true) →
      (sign = [] ∨ sign = [('+' : Letter)] ∨ sign = [('-' : Letter)]) →
      Grouped cs ds → ds.length ≤ 4300 →
      Writes (front ++ (sign ++ cs) ++ back)
        (if sign = [('-' : Letter)] then -(ofDigits ds : ℤ) else ofDigits ds)

theorem signed_append {sign cs : List Letter} {ds : List ℕ}
    (hsign : sign = [] ∨ sign = [('+' : Letter)] ∨ sign = [('-' : Letter)]) (hcs : Grouped cs ds) :
    signed (sign ++ cs) = (decide (sign = [('-' : Letter)]), cs) := by
  rcases hsign with rfl | rfl | rfl
  · have hminus := hcs.head_ne (c := '-') (by decide)
    have hplus := hcs.head_ne (c := '+') (by decide)
    refine signed.eq_3 cs ?_ ?_
    · rintro r rfl
      exact hminus rfl
    · rintro r rfl
      exact hplus rfl
  · rfl
  · rfl

theorem exists_sign (cs : List Letter) :
    ∃ sign, (sign = [] ∨ sign = [('+' : Letter)] ∨ sign = [('-' : Letter)]) ∧
    cs = sign ++ (signed cs).2 ∧ (signed cs).1 = decide (sign = [('-' : Letter)]) := by
  fun_cases signed cs with
  | case1 r => exact ⟨['-'], by simp, rfl, by simp⟩
  | case2 r => exact ⟨['+'], by simp, rfl, by simp⟩
  | case3 r => exact ⟨[], by simp, rfl, by simp⟩

/-- What is read of a text is that of its core, which white space surrounds. -/
theorem readInt?_eq_some_iff {s : Text} {n : ℤ} {core : List Letter}
    (hcore : trimBy isWhiteSpace s.toList = core) :
    readInt? s = some n ↔ ∃ ds, groupedDigits (signed core).2 = some ds ∧ ds.length ≤ 4300 ∧
      n = if (signed core).1 then -(ofDigits ds : ℤ) else ofDigits ds := by
  rw [readInt?, hcore]
  simp only [Option.bind_eq_bind, Option.bind_eq_some_iff]
  refine exists_congr fun ds => and_congr_right fun _ => ?_
  by_cases hlength : ds.length ≤ 4300
  · rw [if_pos (show ds.length ≤ maxDigits from hlength)]
    exact ⟨fun h => ⟨hlength, (Option.some.inj h).symm⟩, fun h => congrArg some h.2.symm⟩
  · rw [if_neg (show ¬ ds.length ≤ maxDigits from hlength)]
    exact iff_of_false (fun h => by cases h) fun h => hlength h.1

theorem writes_of_readInt?_strip {s : Text} {n : ℤ} (h : readInt? (strip s) = some n) :
    Writes s.toList n := by
  obtain ⟨front, back, houter, hfront, hback⟩ := exists_append_trimBy isBlank s.toList
  obtain ⟨front', back', hinner, hfront', hback'⟩ :=
    exists_append_trimBy isWhiteSpace (trimBy isBlank s.toList)
  have hstrip : trimBy isWhiteSpace (strip s).toList =
      trimBy isWhiteSpace (trimBy isBlank s.toList) := by rw [strip, Text.toList_ofList]
  obtain ⟨ds, hds, hlength, rfl⟩ := (readInt?_eq_some_iff hstrip).mp h
  obtain ⟨sign, hsign, hcore, hnegative⟩ :=
    exists_sign (trimBy isWhiteSpace (trimBy isBlank s.toList))
  have hblank {c : Letter} (hc : isWhiteSpace c = true) : isBlank c = true :=
    (Bool.and_eq_true _ _ ▸ hc).1
  have hleft : ∀ c ∈ front ++ front', isBlank c = true := fun c hc =>
    (List.mem_append.mp hc).elim (hfront c) fun hc => hblank (hfront' c hc)
  have hright : ∀ c ∈ back' ++ back, isBlank c = true := fun c hc =>
    (List.mem_append.mp hc).elim (fun hc => hblank (hback' c hc)) (hback c)
  have hwrites := Writes.intro hleft hright hsign (grouped_of_groupedDigits hds) hlength
  have htext : s.toList = front ++ front' ++
      (sign ++ (signed (trimBy isWhiteSpace (trimBy isBlank s.toList))).2) ++ (back' ++ back) :=
    calc s.toList = front ++ trimBy isBlank s.toList ++ back := houter
      _ = front ++ (front' ++ trimBy isWhiteSpace (trimBy isBlank s.toList) ++ back') ++ back := by
        rw [← hinner]
      _ = _ := by rw [← hcore]; simp only [List.append_assoc]
  rw [← htext] at hwrites
  simpa [hnegative] using hwrites

theorem readInt?_strip_of_writes {s : Text} {n : ℤ} (h : Writes s.toList n) :
    readInt? (strip s) = some n := by
  generalize htext : s.toList = text at h
  obtain @⟨front, back, sign, cs, ds, hfront, hback, hsign, hcs, hlength⟩ := h
  obtain ⟨c, r, d, hcons, hc⟩ := hcs.exists_cons
  obtain ⟨l, dl, hl, hdl⟩ := hcs.getLast?
  have hne : sign ++ cs ≠ [] := by simp [hcons]
  have hhead : ∀ x ∈ (sign ++ cs).head?, isBlank x = false := by
    rcases hsign with rfl | rfl | rfl
    · rw [hcons]
      rintro x ⟨⟩
      exact isBlank_of_digitValue? hc
    · rintro x ⟨⟩
      rfl
    · rintro x ⟨⟩
      rfl
  have hlast : ∀ x ∈ (sign ++ cs).getLast?, isBlank x = false := by
    rw [List.getLast?_append, hl]
    rintro x ⟨⟩
    exact isBlank_of_digitValue? hdl
  have hwhite {x : Letter} (hx : isBlank x = false) : isWhiteSpace x = false := by
    simp [isWhiteSpace, hx]
  have hinner : trimBy isWhiteSpace ([] ++ (sign ++ cs) ++ []) = sign ++ cs :=
    trimBy_append (by simp) (by simp) hne (fun x hx => hwhite (hhead x hx))
      (fun x hx => hwhite (hlast x hx))
  rw [List.nil_append, List.append_nil] at hinner
  have hcore : trimBy isWhiteSpace (strip s).toList = sign ++ cs := by
    rw [strip, Text.toList_ofList, htext, trimBy_append hfront hback hne hhead hlast, hinner]
  refine (readInt?_eq_some_iff hcore).mpr ⟨ds, ?_, hlength, ?_⟩
  · rw [signed_append hsign hcs]
    exact groupedDigits_eq_some_iff.mpr hcs
  · rw [signed_append hsign hcs]
    simp

/-- A number is read of a text, trimmed of its blanks, exactly if the text writes it. -/
theorem readInt?_strip_eq_some_iff {s : Text} {n : ℤ} :
    readInt? (strip s) = some n ↔ Writes s.toList n :=
  ⟨writes_of_readInt?_strip, readInt?_strip_of_writes⟩

namespace Binary64

/-- The value of a float is this whole number. -/
def IsInt : Binary64 → ℤ → Prop
  | .finite negative x, n => (if negative then -(x.num : ℤ) else x.num) = n * x.den
  | _, _ => False

theorem toInt?_eq_some_iff {x : Binary64} {n : ℤ} : x.toInt? = some n ↔ x.IsInt n := by
  match x with
  | .nan | .infinite _ => simp [toInt?, IsInt]
  | .finite negative x =>
    have hden : (x.den : ℤ) ≠ 0 := by exact_mod_cast x.den_pos.ne'
    have hfloor (h : x.isWhole = true) : (x.num : ℤ) = x.floor * x.den := by
      have hdvd : x.den ∣ x.num := Nat.dvd_of_mod_eq_zero (by simpa [Magnitude.isWhole] using h)
      exact_mod_cast (Nat.div_mul_cancel hdvd).symm
    constructor
    · intro h
      rw [toInt?] at h
      split at h
      · rename_i hwhole
        rw [← Option.some.inj h, IsInt, hfloor hwhole]
        cases negative <;> simp
      · cases h
    · intro h
      rw [IsInt] at h
      have hdvd : (x.den : ℤ) ∣ x.num := by
        cases negative
        · exact ⟨n, by simpa [mul_comm] using h⟩
        · exact ⟨-n, by rw [mul_neg, mul_comm, ← h]; simp⟩
      have hwhole : x.isWhole = true := by
        have hmod := Nat.mod_eq_zero_of_dvd (Int.natCast_dvd_natCast.mp hdvd)
        simpa [Magnitude.isWhole] using hmod
      rw [toInt?, if_pos hwhole]
      rw [hfloor hwhole] at h
      refine congrArg some (mul_right_cancel₀ hden ?_)
      rw [← h]
      cases negative <;> simp

end Binary64
end Decimal
end Paging
