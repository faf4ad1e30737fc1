import Mathlib.Algebra.Order.Field.Power
import Mathlib.Data.Int.Log
import Mathlib.Data.Rat.Floor
import Mathlib.Tactic.Linarith
import Mathlib.Tactic.Ring
import Paging.Decimal.Shortest

/-! Rounding to a number of 64 bits. A quotient is rounded by its value alone, a number is
its own rounding, and so the shortest digits of a number read back as that number. -/
namespace Paging.Decimal.Magnitude

/-! ### Rounding depends on the value alone -/

theorem roundHalfEven_mul {k : Nat} (hk : 0 < k) (num den : Nat) :
    roundHalfEven (num * k) (den * k) = roundHalfEven num den := by
  have hlow : 2 * (num % den * k) < den * k ↔ 2 * (num % den) < den := by
    rw [← Nat.mul_assoc, Nat.mul_lt_mul_right hk]
  have hhigh : den * k < 2 * (num % den * k) ↔ den < 2 * (num % den) := by
    rw [← Nat.mul_assoc, Nat.mul_lt_mul_right hk]
  simp only [roundHalfEven, Nat.mul_div_mul_right _ _ hk, Nat.mul_mod_mul_right, hlow, hhigh]

theorem roundHalfEven_mul_self (m : Nat) {den : Nat} (hden : 0 < den) :
    roundHalfEven (m * den) den = m := by
  simp [roundHalfEven, hden]

theorem scale_mul (num den k : Nat) (e : Int) :
    scale (num * k) (den * k) e = ((scale num den e).1 * k, (scale num den e).2 * k) := by
  simp only [scale, Nat.mul_right_comm]

theorem scale_den_pos {den : Nat} (num : Nat) (hden : 0 < den) (e : Int) :
    0 < (scale num den e).2 := by
  exact Nat.mul_pos hden (Nat.pow_pos (by decide))

/-- Scaling divides the value by the power. -/
theorem scale_value (num den : Nat) (e : Int) :
    ((scale num den e).1 : ℚ) / (scale num den e).2 = (num / den : ℚ) / 2 ^ e := by
  have hpow : (2 : ℚ) ^ (-e).toNat / 2 ^ e.toNat = (2 ^ e)⁻¹ := by
    rw [← zpow_natCast, ← zpow_natCast, ← zpow_sub₀ (by norm_num), ← zpow_neg]
    congr 1
    omega
  simp only [scale, Nat.pow_eq, Nat.cast_mul, Nat.cast_pow, Nat.cast_ofNat]
  rw [mul_div_mul_comm, hpow, div_eq_mul_inv]
  rfl

theorem log2_lt_zpow {n : Nat} (hn : 0 < n) :
    (2 : ℚ) ^ (Nat.log2 n : Int) ≤ n ∧ (n : ℚ) < 2 ^ ((Nat.log2 n : Int) + 1) := by
  have hlow := Nat.log2_self_le (Nat.pos_iff_ne_zero.mp hn)
  have hhigh := Nat.lt_log2_self (n := n)
  constructor
  · rw [zpow_natCast]
    exact_mod_cast hlow
  · rw [← Nat.cast_succ, zpow_natCast]
    exact_mod_cast hhigh

/-- The exponent is that of the value's 53rd bit, and never below the least one. -/
theorem exponentOf_eq {num den : Nat} (hnum : 0 < num) (hden : 0 < den) :
    exponentOf num den = max (-1074) (Int.log 2 (num / den : ℚ) - 52) := by
  have hq : (0 : ℚ) < num / den := by positivity
  -- The lengths of the two parts give the exponent but for one place.
  obtain ⟨hn, hn'⟩ := log2_lt_zpow hnum
  obtain ⟨hd, hd'⟩ := log2_lt_zpow hden
  have hupper : Int.log 2 (num / den : ℚ) < (Nat.log2 num : Int) - Nat.log2 den + 1 := by
    rw [← Int.lt_zpow_iff_log_lt one_lt_two hq, div_lt_iff₀ (by positivity)]
    calc (num : ℚ) < 2 ^ ((Nat.log2 num : Int) + 1) := hn'
      _ = 2 ^ ((Nat.log2 num : Int) - Nat.log2 den + 1) * 2 ^ (Nat.log2 den : Int) := by
        rw [← zpow_add₀ (by norm_num)]
        congr 1
        omega
      _ ≤ _ := by
        push_cast
        exact mul_le_mul_of_nonneg_left hd (by positivity)
  have hlower : (Nat.log2 num : Int) - Nat.log2 den - 1 ≤ Int.log 2 (num / den : ℚ) := by
    rw [← Int.zpow_le_iff_le_log one_lt_two hq, le_div_iff₀ (by positivity)]
    push_cast
    calc (2 : ℚ) ^ ((Nat.log2 num : Int) - Nat.log2 den - 1) * den
        ≤ 2 ^ ((Nat.log2 num : Int) - Nat.log2 den - 1) * 2 ^ ((Nat.log2 den : Int) + 1) :=
          mul_le_mul_of_nonneg_left hd'.le (by positivity)
      _ = 2 ^ (Nat.log2 num : Int) := by
        rw [← zpow_add₀ (by norm_num)]
        congr 1
        omega
      _ ≤ num := hn
  set e : Int := (Nat.log2 num : Int) - Nat.log2 den - 52 with he
  have hsmall : (scale num den e).1 / (scale num den e).2 < Nat.pow 2 52 ↔
      Int.log 2 (num / den : ℚ) < e + 52 := by
    have hpos : (0 : ℚ) < (scale num den e).2 := by exact_mod_cast scale_den_pos num hden e
    rw [Nat.div_lt_iff_lt_mul (scale_den_pos num hden e),
      ← Int.lt_zpow_iff_log_lt one_lt_two hq, zpow_add₀ (by norm_num),
      ← div_lt_iff₀' (by positivity), Nat.cast_ofNat, ← scale_value, div_lt_iff₀ hpos]
    norm_cast
  rw [exponentOf]
  simp only [← he, hsmall]
  split <;> omega

theorem exponentOf_mul {num den k : Nat} (hnum : 0 < num) (hden : 0 < den) (hk : 0 < k) :
    exponentOf (num * k) (den * k) = exponentOf num den := by
  have hk' : (k : ℚ) ≠ 0 := by positivity
  rw [exponentOf_eq (Nat.mul_pos hnum hk) (Nat.mul_pos hden hk), exponentOf_eq hnum hden,
    Nat.cast_mul, Nat.cast_mul, mul_div_mul_right _ _ hk']

theorem ofRatio_mul {den k : Nat} (num : Nat) (hden : 0 < den) (hk : 0 < k) :
    ofRatio (num * k) (den * k) = ofRatio num den := by
  by_cases hnum : num = 0
  · simp [ofRatio, hnum]
  · have hpos := Nat.pos_of_ne_zero hnum
    have hne : num * k ≠ 0 := Nat.mul_ne_zero hnum (by omega)
    simp only [ofRatio, hnum, hne, if_false, exponentOf_mul hpos hden hk, scale_mul,
      roundHalfEven_mul hk]

/-! ### A number is its own rounding -/

theorem value_eq (x : Magnitude) : (x.num / x.den : ℚ) = x.mantissa * 2 ^ x.exponent := by
  have hpow : (2 : ℚ) ^ x.exponent.toNat / 2 ^ (-x.exponent).toNat = 2 ^ x.exponent := by
    rw [← zpow_natCast, ← zpow_natCast, ← zpow_sub₀ (by norm_num)]
    congr 1
    omega
  simp only [num, den, Nat.pow_eq, Nat.cast_mul, Nat.cast_pow, Nat.cast_ofNat]
  rw [mul_div_assoc, hpow]

theorem den_pos (x : Magnitude) : 0 < x.den := Nat.pow_pos (by decide)

theorem num_pos {x : Magnitude} (hx : x.mantissa ≠ 0) : 0 < x.num :=
  Nat.mul_pos (Nat.pos_of_ne_zero hx) (Nat.pow_pos (by decide))

theorem exponentOf_self {x : Magnitude} (hx : x.mantissa ≠ 0) :
    exponentOf x.num x.den = x.exponent := by
  obtain ⟨hlt, hlow, -, hbits⟩ := x.canonical
  have hm : (0 : ℚ) < x.mantissa := by exact_mod_cast Nat.pos_of_ne_zero hx
  have hq : (0 : ℚ) < x.mantissa * 2 ^ x.exponent := by positivity
  have hupper : Int.log 2 (x.mantissa * 2 ^ x.exponent : ℚ) < 53 + x.exponent := by
    rw [← Int.lt_zpow_iff_log_lt one_lt_two hq, zpow_add₀ (by norm_num)]
    exact mul_lt_mul_of_pos_right (by exact_mod_cast hlt) (by positivity)
  rw [exponentOf_eq (num_pos hx) x.den_pos, value_eq]
  rcases hbits with hbits | hleast
  · have hlower : 52 + x.exponent ≤ Int.log 2 (x.mantissa * 2 ^ x.exponent : ℚ) := by
      rw [← Int.zpow_le_iff_le_log one_lt_two hq, zpow_add₀ (by norm_num)]
      exact mul_le_mul_of_nonneg_right (by exact_mod_cast hbits) (by positivity)
    omega
  · omega

theorem scale_self (x : Magnitude) :
    ∃ k, 0 < k ∧ scale x.num x.den x.exponent = (x.mantissa * k, k) := by
  refine ⟨x.den * Nat.pow 2 x.exponent.toNat, Nat.mul_pos x.den_pos (Nat.pow_pos (by decide)), ?_⟩
  simp only [scale, num, den, Nat.mul_assoc, Nat.mul_comm]

theorem ofRatio_self {x : Magnitude} (hx : x.mantissa ≠ 0) : ofRatio x.num x.den = some x := by
  obtain ⟨k, hk, hscale⟩ := scale_self x
  have hne : x.num ≠ 0 := (num_pos hx).ne'
  have hround : roundHalfEven (x.mantissa * k) k = x.mantissa := roundHalfEven_mul_self _ hk
  have hlt : x.mantissa ≠ Nat.pow 2 53 := x.canonical.1.ne
  simp only [ofRatio, hne, if_false, exponentOf_self hx, hscale, hround, hlt, ofParts?_self]

/-! ### Decimals that read back -/

theorem length_toDigits_mul_ten {n : Nat} (hn : 0 < n) :
    (Nat.toDigits 10 (n * 10)).length = (Nat.toDigits 10 n).length + 1 := by
  have happend := Nat.toDigits_append_toDigits (b := 10) (by decide) hn (d := 0) (by decide)
  rw [Nat.add_zero, Nat.mul_comm] at happend
  rw [← happend, List.length_append]
  rfl

theorem ofDecimal_shift {n : Nat} (hn : 0 < n) (e : Int) :
    ofDecimal (n * 10) (e - 1) = ofDecimal n e := by
  have hne : n ≠ 0 := hn.ne'
  have hne' : n * 10 ≠ 0 := by omega
  have hratio : ofRatio (n * 10 * Nat.pow 10 (e - 1).toNat) (Nat.pow 10 (-(e - 1)).toNat) =
      ofRatio (n * Nat.pow 10 e.toNat) (Nat.pow 10 (-e).toNat) := by
    rcases Int.lt_or_le 0 e with he | he
    · have hnum : e.toNat = (e - 1).toNat + 1 := by omega
      have hden : (-(e - 1)).toNat = (-e).toNat := by omega
      simp only [hden, hnum, Nat.pow_eq, Nat.pow_succ', Nat.mul_assoc]
    · have hnum : (e - 1).toNat = e.toNat := by omega
      have hden : (-(e - 1)).toNat = (-e).toNat + 1 := by omega
      simp only [hnum, hden, Nat.pow_eq, Nat.pow_succ, Nat.mul_right_comm n 10]
      exact ofRatio_mul _ (Nat.pow_pos (by decide)) (by decide)
  have hplaces : ((Nat.toDigits 10 (n * 10)).length : Int) + (e - 1) =
      (Nat.toDigits 10 n).length + e := by
    rw [length_toDigits_mul_ten hn]
    omega
  simp only [ofDecimal, hne, hne', if_false, hplaces, hratio]

theorem ofDecimal_mul_pow {n : Nat} (hn : 0 < n) (k : Nat) (e : Int) :
    ofDecimal (n * 10 ^ k) (e - k) = ofDecimal n e := by
  induction k with
  | zero => simp
  | succ k ih =>
    have he : e - (k + 1 : Nat) = e - k - 1 := by omega
    rw [he, Nat.pow_succ, ← Nat.mul_assoc,
      ofDecimal_shift (Nat.mul_pos hn (Nat.pow_pos (by decide))), ih]

theorem ofDecimal_trimZeros (fuel : Nat) (d : Numeral) :
    ofDecimal (d.trimZeros fuel).digits (d.trimZeros fuel).exponent =
      ofDecimal d.digits d.exponent := by
  induction fuel generalizing d with
  | zero => rfl
  | succ fuel ih =>
    rw [Numeral.trimZeros]
    split
    · rename_i h
      have hdiv : d.digits / 10 * 10 = d.digits := by omega
      have hshift := ofDecimal_shift (n := d.digits / 10) (by omega) (d.exponent + 1)
      rw [hdiv, Int.add_sub_cancel] at hshift
      rw [ih, hshift]
    · rfl

theorem two_pow_le {a b : Nat} (h : a ≤ b) : 2 ^ a ≤ 2 ^ b := Nat.pow_le_pow_right (by decide) h

theorem exact_digits (x : Magnitude) : x.exact.digits = x.num * 5 ^ (-x.exponent).toNat := rfl

theorem length_exact_le (x : Magnitude) :
    (Nat.toDigits 10 x.exact.digits).length ≤ 310 + (-x.exponent).toNat := by
  obtain ⟨hlt, -, hhigh, -⟩ := x.canonical
  have hexponent : x.exponent.toNat ≤ 971 := by omega
  have hnum : x.num < 2 ^ 53 * 2 ^ x.exponent.toNat :=
    Nat.mul_lt_mul_of_pos_right hlt (Nat.two_pow_pos _)
  rw [exact_digits, Nat.length_toDigits_le_iff (by decide) (by omega)]
  calc x.num * 5 ^ (-x.exponent).toNat
      < 2 ^ 53 * 2 ^ x.exponent.toNat * 5 ^ (-x.exponent).toNat :=
        Nat.mul_lt_mul_of_pos_right hnum (Nat.pow_pos (by decide))
    _ ≤ 2 ^ 53 * 2 ^ 971 * 5 ^ (-x.exponent).toNat :=
        Nat.mul_le_mul_right _ (Nat.mul_le_mul_left _ (two_pow_le hexponent))
    _ ≤ 10 ^ 310 * 10 ^ (-x.exponent).toNat :=
        Nat.mul_le_mul (by decide +kernel) (Nat.pow_le_pow_left (by decide) _)
    _ = 10 ^ (310 + (-x.exponent).toNat) := by rw [Nat.pow_add]

theorem le_length_exact {x : Magnitude} (hx : x.mantissa ≠ 0) :
    (-x.exponent).toNat ≤ (Nat.toDigits 10 x.exact.digits).length + 330 := by
  have hlow := x.canonical.2.1
  set n := (Nat.toDigits 10 x.exact.digits).length with hn
  by_contra hfew
  have hten : 5 ^ (-x.exponent).toNat < 10 ^ n := by
    have hlen := (Nat.length_toDigits_le_iff (b := 10) (k := n) (by decide)
      Nat.length_toDigits_pos).mp hn.symm.le
    exact (Nat.le_mul_of_pos_left _ (num_pos hx)).trans_lt hlen
  have hn' : n ≤ 743 := by omega
  have hcontra : 5 ^ 331 * 5 ^ n < 2 ^ 743 * 5 ^ n :=
    calc 5 ^ 331 * 5 ^ n = 5 ^ (331 + n) := by rw [Nat.pow_add]
      _ ≤ 5 ^ (-x.exponent).toNat := Nat.pow_le_pow_right (by decide) (by omega)
      _ < 10 ^ n := hten
      _ = 2 ^ n * 5 ^ n := Nat.mul_pow 2 5 n
      _ ≤ 2 ^ 743 * 5 ^ n := Nat.mul_le_mul_right _ (two_pow_le hn')
  exact absurd (Nat.lt_of_mul_lt_mul_right hcontra) (by decide +kernel)

theorem ofDecimal_exact {x : Magnitude} (hx : x.mantissa ≠ 0) :
    ofDecimal x.exact.digits x.exact.exponent = some x := by
  have hupper := x.length_exact_le
  have hlower := le_length_exact hx
  have hpos : 0 < x.exact.digits := Nat.mul_pos (num_pos hx) (Nat.pow_pos (by decide))
  have hexponent : x.exact.exponent = -((-x.exponent).toNat : Int) := rfl
  have hnone : x.exact.exponent.toNat = 0 := by omega
  have hsome : (-x.exact.exponent).toNat = (-x.exponent).toNat := by omega
  have hden : 10 ^ (-x.exponent).toNat = x.den * 5 ^ (-x.exponent).toNat := Nat.mul_pow 2 5 _
  have hratio : ofRatio x.exact.digits (10 ^ (-x.exponent).toNat) = some x := by
    rw [exact_digits, hden, ofRatio_mul _ x.den_pos (Nat.pow_pos (by decide)), ofRatio_self hx]
  simp only [ofDecimal]
  rw [if_neg hpos.ne', if_neg (by omega), if_neg (by omega), hnone, hsome]
  simpa using hratio

theorem ofDecimal_of_neighbour? {x : Magnitude} {e : Int} {d : Numeral}
    (h : x.neighbour? e = some d) : ofDecimal d.digits d.exponent = some x := by
  have hback {c : Numeral} (hc : x.readsBack c = true) : ofDecimal c.digits c.exponent = some x :=
    of_decide_eq_true hc
  unfold neighbour? at h
  extract_lets num den lo hi r lowFirst near far at h
  split at h
  · rename_i hnear
    exact Option.some.inj h ▸ hback hnear
  · split at h
    · rename_i hfar
      exact Option.some.inj h ▸ hback hfar
    · cases h

/-- The shortest digits read back. -/
theorem ofDecimal_shortest {x : Magnitude} (hx : x.mantissa ≠ 0) :
    ofDecimal x.shortest.digits x.shortest.exponent = some x := by
  rw [shortest, ofDecimal_trimZeros]
  cases hfound : (List.range 17).findSome? fun (n : Nat) =>
      x.neighbour? (leadingPower x.num x.den - n) with
  | none => exact ofDecimal_exact hx
  | some d =>
    obtain ⟨n, -, hn⟩ := List.exists_of_findSome?_eq_some hfound
    exact ofDecimal_of_neighbour? hn

theorem shortest_digits_ne_zero {x : Magnitude} (hx : x.mantissa ≠ 0) :
    x.shortest.digits ≠ 0 := by
  intro h
  have hback := ofDecimal_shortest hx
  rw [h] at hback
  simp only [ofDecimal, if_true, Option.some.injEq] at hback
  exact hx (hback ▸ rfl)

end Paging.Decimal.Magnitude
