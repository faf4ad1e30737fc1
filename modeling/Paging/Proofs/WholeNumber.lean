import Paging.Proofs.Scalar

/-! Integers in free text. The decimal text of an integer is read as the integer, unless it has
too many digits. -/
namespace Paging.Decimal

open Paging.Text Paging.Json

theorem toNat_of_isDigit {c : Char} (hc : c.isDigit = true) : 48 ≤ c.toNat ∧ c.toNat ≤ 57 := by
  simpa [Char.isDigit, UInt32.le_iff_toNat_le] using hc

theorem digitValue?_of_isDigit {c : Char} (hc : c.isDigit = true) :
    digitValue? (.char c) = some (c.toNat - 48) := by
  have hbounds := toNat_of_isDigit hc
  have hzeros : zeros = 48 :: zeros.tail := rfl
  rw [digitValue?, hzeros, List.find?_cons_of_pos (by simpa using ⟨hbounds.1, by omega⟩)]
  rfl

theorem groupedDigits_of_isDigits {cs : List Char} (hcs : IsDigits cs) (hne : cs ≠ []) :
    groupedDigits (letters cs) = some (digitsOf (letters cs)) := by
  induction cs with
  | nil => exact absurd rfl hne
  | cons c cs ih =>
    have hc := digitValue?_of_isDigit (hcs c List.mem_cons_self)
    have hrest : IsDigits cs := fun d hd => hcs d (List.mem_cons_of_mem _ hd)
    cases cs with
    | nil => simp [groupedDigits, hc, digitsOf]
    | cons d cs =>
      have hd : Letter.char d ≠ '_' := by
        rintro ⟨⟩
        exact absurd (hrest '_' List.mem_cons_self) (by decide)
      rw [letters_cons, letters_cons, groupedDigits.eq_4 _ _ (by simp) (by simp [hd]), hc,
        ← letters_cons, ih hrest (List.cons_ne_nil _ _)]
      rfl

theorem trimBy_eq_self {α : Type} {p : α → Bool} {s : List α} (hs : ∀ x ∈ s, p x = false) :
    trimBy p s = s := by
  have hdrop {t : List α} (ht : ∀ x ∈ t, p x = false) : t.dropWhile p = t := by
    cases t with
    | nil => rfl
    | cons x t => rw [List.dropWhile_cons_of_neg (by simp [ht x List.mem_cons_self])]
  rw [trimBy, hdrop hs, hdrop fun x hx => hs x (List.mem_reverse.mp hx), List.reverse_reverse]

theorem signed_append_digits (negative : Bool) {cs : List Char} (hcs : IsDigits cs) :
    signed (letters (signText negative) ++ letters cs) = (negative, letters cs) := by
  cases negative with
  | true => rfl
  | false =>
    cases cs with
    | nil => rfl
    | cons c cs =>
      have hc := hcs c List.mem_cons_self
      have hne {d : Char} (hd : d.isDigit = false) : Letter.char c ≠ d := by
        rintro ⟨⟩
        exact absurd (hc.symm.trans hd) (by decide)
      exact signed.eq_3 _ (fun _ h => hne rfl (List.cons.inj h).1)
        (fun _ h => hne rfl (List.cons.inj h).1)

theorem isWhiteSpace_of_isDigit {c : Char} (hc : c.isDigit = true) :
    isWhiteSpace (.char c) = false := by
  have hbounds := toNat_of_isDigit hc
  simp [isWhiteSpace, isBlank]
  omega

theorem readInt?_toString (n : Int) :
    readInt? (toString n : String) =
      if (Nat.toDigits 10 n.natAbs).length ≤ maxDigits then some n else none := by
  have hdigits := isDigits_toDigits n.natAbs
  have htrim : trimBy isWhiteSpace (letters (toString n).toList) = letters (toString n).toList := by
    refine trimBy_eq_self fun c hc => ?_
    obtain ⟨d, hd, rfl⟩ := List.mem_map.mp hc
    rw [toList_toString_int, signText] at hd
    rcases List.mem_append.mp hd with hd | hd
    · split at hd
      · rw [List.mem_singleton.mp hd]
        rfl
      · cases hd
    · exact isWhiteSpace_of_isDigit (hdigits d hd)
  have hvalue : ofDigits (digitsOf (letters (Nat.toDigits 10 n.natAbs))) = n.natAbs := by
    rw [ofDigits_digitsOf, Nat.ofDigitChars_ten_toDigits]
  rw [readInt?, Text.toList_ofString, htrim, toList_toString_int, letters_append,
    signed_append_digits _ hdigits]
  simp only [groupedDigits_of_isDigits hdigits Nat.toDigits_ne_nil, Option.bind_eq_bind,
    Option.bind_some, hvalue, signed_natAbs]
  rw [digitsOf, List.length_map, length_letters]
  rfl

end Paging.Decimal
