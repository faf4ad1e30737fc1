import Paging.Json.Printer
import Paging.Json.Reader
import Paging.Proofs.Rounding

/-! Scalars as JSON. Whatever the style, the text of a finite float reads back as the float;
that of an integer reads back as the integer unless it has more digits than are read. No
number reads like one of the fixed words. -/
namespace Paging.Json

open Decimal

/-- The reader comes to this outcome, and if that is a value it stops in front of `r`. -/
def Reads {α : Type} (result : Except Error (α × Cursor)) (outcome : Except Error α)
    (r : List Letter) : Prop :=
  ∃ q, result = outcome.map fun v => (v, ⟨r, q⟩)

/-- What may follow a value in a text without white space. -/
def Ends (r : List Letter) : Prop :=
  ∀ c ∈ r.head?, c = ',' ∨ c = ']' ∨ c = '\x7d'

theorem ends_nil : Ends [] := by
  intro c hc
  cases hc

theorem Ends.takeWhile_isDigit {r : List Letter} (hr : Ends r) :
    r.takeWhile Letter.isDigit = [] := by
  cases r with
  | nil => rfl
  | cons c r =>
    rcases hr c rfl with rfl | rfl | rfl <;> rfl

theorem Ends.fractionPart {r : List Letter} (hr : Ends r) : fractionPart r = [] := by
  cases r with
  | nil => rfl
  | cons c r =>
    rcases hr c rfl with rfl | rfl | rfl <;> rfl

theorem Ends.exponentPart? {r : List Letter} (hr : Ends r) : exponentPart? r = none := by
  cases r with
  | nil => rfl
  | cons c r =>
    rcases hr c rfl with rfl | rfl | rfl <;> rfl

/-! ### Digits -/

theorem ofDigits_digitsOf (cs : List Char) :
    ofDigits (digitsOf (letters cs)) = Nat.ofDigitChars 10 cs 0 := by
  rw [ofDigits, digitsOf, letters, List.foldl_map, List.foldl_map]
  rfl

def IsDigits (cs : List Char) : Prop := ∀ c ∈ cs, c.isDigit = true

theorem isDigits_toDigits (n : Nat) : IsDigits (Nat.toDigits 10 n) :=
  fun _ hc => Nat.isDigit_of_mem_toDigits (by decide) (by decide) hc

theorem isDigits_replicate (n : Nat) : IsDigits (List.replicate n '0') := by
  intro c hc
  rw [List.eq_of_mem_replicate hc]
  rfl

theorem IsDigits.append {cs ds : List Char} (hc : IsDigits cs) (hd : IsDigits ds) :
    IsDigits (cs ++ ds) := by
  intro c h
  rcases List.mem_append.mp h with h | h
  · exact hc c h
  · exact hd c h

theorem IsDigits.takeWhile_append {ds : List Char} {r : List Letter} (hd : IsDigits ds)
    (hr : r.takeWhile Letter.isDigit = []) :
    (letters ds ++ r).takeWhile Letter.isDigit = letters ds := by
  have hall : ∀ c ∈ letters ds, Letter.isDigit c = true := by
    intro c hc
    obtain ⟨d, hmem, rfl⟩ := List.mem_map.mp hc
    exact hd d hmem
  rw [List.takeWhile_append_of_pos hall, hr, List.append_nil]

theorem head?_toDigits_ne {n : Nat} (hn : n ≠ 0) : (Nat.toDigits 10 n).head? ≠ some '0' := by
  induction n using Nat.strongRecOn with
  | ind n ih =>
    by_cases hlt : n < 10
    · rw [Nat.toDigits_of_lt_base hlt]
      simpa using hn
    · rw [Nat.toDigits_of_base_le (by decide) (by omega),
        List.head?_append_of_ne_nil _ Nat.toDigits_ne_nil]
      exact ih (n / 10) (by omega) (by omega)

/-! ### Numbers by their parts -/

/-- A number in print, without its sign. -/
structure Literal where
  whole : List Char
  fraction : List Char := []
  /-- Is the exponent negative, and its digits. -/
  exponent : Option (Bool × List Char) := none

namespace Literal

def fractionText : List Char → List Char
  | [] => []
  | c :: ds => '.' :: c :: ds

def exponentText : Option (Bool × List Char) → List Char
  | none => []
  | some (negative, ds) => 'e' :: (if negative then '-' else '+') :: ds

def text (l : Literal) : List Char :=
  l.whole ++ (fractionText l.fraction ++ exponentText l.exponent)

structure WellFormed (l : Literal) : Prop where
  whole : IsDigits l.whole
  whole_ne : l.whole ≠ []
  leading : l.whole = ['0'] ∨ l.whole.head? ≠ some '0'
  fraction : IsDigits l.fraction
  exponent : ∀ e ∈ l.exponent, IsDigits e.2 ∧ e.2 ≠ []

def digits (l : Literal) : Nat := Nat.ofDigitChars 10 (l.whole ++ l.fraction) 0

def power (l : Literal) : Int :=
  (match l.exponent with
    | none => 0
    | some (negative, ds) =>
      if negative then -(Nat.ofDigitChars 10 ds 0 : Int) else Nat.ofDigitChars 10 ds 0) -
    l.fraction.length

variable {l : Literal} {r : List Letter}

theorem WellFormed.wholePart (hl : l.WellFormed) {tail : List Letter}
    (ht : tail.takeWhile Letter.isDigit = []) :
    wholePart (letters l.whole ++ tail) = letters l.whole := by
  rcases hl.leading with h | h
  · rw [h]
    rfl
  · have htake := hl.whole.takeWhile_append ht
    cases hw : l.whole with
    | nil => exact absurd hw hl.whole_ne
    | cons c cs =>
      rw [hw] at h htake
      have hc : Letter.char c ≠ '0' := by simpa using h
      unfold Json.wholePart
      split
      · rename_i hcons
        exact absurd (List.cons.inj hcons).1 hc
      · exact htake

theorem takeWhile_exponentText (e : Option (Bool × List Char)) (hr : Ends r) :
    (letters (exponentText e) ++ r).takeWhile Letter.isDigit = [] := by
  match e with
  | none => exact hr.takeWhile_isDigit
  | some (negative, ds) => rfl

theorem fractionPart_exponentText (e : Option (Bool × List Char)) (hr : Ends r) :
    fractionPart (letters (exponentText e) ++ r) = [] := by
  match e with
  | none => exact hr.fractionPart
  | some (negative, ds) => rfl

theorem takeWhile_fractionText (ds : List Char) (e : Option (Bool × List Char)) (hr : Ends r) :
    (letters (fractionText ds) ++ (letters (exponentText e) ++ r)).takeWhile Letter.isDigit =
      [] := by
  match ds with
  | [] => exact takeWhile_exponentText e hr
  | c :: ds => rfl

theorem fractionPart_fractionText {ds : List Char} (hds : IsDigits ds)
    (e : Option (Bool × List Char)) (hr : Ends r) :
    fractionPart (letters (fractionText ds) ++ (letters (exponentText e) ++ r)) = letters ds := by
  match ds with
  | [] => exact fractionPart_exponentText e hr
  | c :: ds => exact hds.takeWhile_append (takeWhile_exponentText e hr)

/-- What the reader makes of an exponent. -/
def used : Option (Bool × List Char) → Option (Nat × Int)
  | none => none
  | some (negative, ds) =>
    let n : Int := Nat.ofDigitChars 10 ds 0
    some (1 + 1 + ds.length, if negative then -n else n)

theorem exponentPart?_exponentText {e : Option (Bool × List Char)}
    (he : ∀ x ∈ e, IsDigits x.2 ∧ x.2 ≠ []) (hr : Ends r) :
    exponentPart? (letters (exponentText e) ++ r) = used e := by
  match e with
  | none => exact hr.exponentPart?
  | some (negative, ds) =>
    obtain ⟨hd, hne⟩ := he _ rfl
    have htake := hd.takeWhile_append hr.takeWhile_isDigit
    cases negative <;>
      simp [exponentText, exponentPart?, signed, htake, hne, used, ofDigits_digitsOf]

theorem drop_exponentText (e : Option (Bool × List Char)) :
    (letters (exponentText e) ++ r).drop ((used e).getD (0, 0)).1 = r := by
  match e with
  | none => rfl
  | some (negative, ds) =>
    have hlen : 1 + 1 + ds.length = ds.length + 2 := by omega
    simp [exponentText, used, hlen]

theorem power_eq (l : Literal) :
    l.power = ((used l.exponent).getD (0, 0)).2 - l.fraction.length := by
  obtain ⟨whole, fraction, _ | ⟨negative, ds⟩⟩ := l <;> rfl

def value (l : Literal) (negative : Bool) : Except Error Value :=
  if l.fraction = [] ∧ l.exponent = none then
    if maxDigits < l.whole.length then .error (.tooLong l.whole.length)
    else .ok (.int (if negative then -(l.digits : Int) else l.digits))
  else .ok (.float (.ofDecimal negative l.digits l.power))

theorem WellFormed.head?_ne (hl : l.WellFormed) (tail : List Letter) :
    (letters l.whole ++ tail).head? ≠ some ('-' : Letter) := by
  cases hw : l.whole with
  | nil => exact absurd hw hl.whole_ne
  | cons c cs =>
    have hc : c.isDigit = true := hl.whole c (by rw [hw]; exact List.mem_cons_self)
    rw [letters_cons, List.cons_append, List.head?_cons]
    rintro ⟨⟩
    exact absurd hc (by decide)

end Literal

def signText (negative : Bool) : List Char := if negative then ['-'] else []

theorem takeSign_signText (negative : Bool) {body : List Letter}
    (hbody : body.head? ≠ some (.char '-')) (p : Nat) :
    ∃ p', takeSign ⟨letters (signText negative) ++ body, p⟩ = (negative, ⟨body, p'⟩) := by
  cases negative with
  | true => exact ⟨p + 1, rfl⟩
  | false =>
    refine ⟨p, ?_⟩
    rw [takeSign]
    split
    · rename_i h
      exact absurd (congrArg List.head? h) hbody
    · rfl

theorem readScalar_number (negative : Bool) {c : Char} (hc : c.isDigit = true) (r : List Letter)
    (p : Nat) : readScalar ⟨letters (signText negative) ++ .char c :: r, p⟩ =
      readNumber ⟨letters (signText negative) ++ .char c :: r, p⟩ := by
  have hne {w : Char} (hw : w.isDigit = false) : (Letter.char w == Letter.char c) = false := by
    rw [beq_eq_false_iff_ne]
    rintro ⟨⟩
    exact absurd (hc.symm.trans hw) (by decide)
  have hnone : words.find?
      (fun w => w.1.isPrefixOf (letters (signText negative) ++ .char c :: r)) = none := by
    cases negative <;>
      simp [words, signText, List.isPrefixOf, hne (w := 'n') rfl, hne (w := 't') rfl,
        hne (w := 'f') rfl, hne (w := 'N') rfl, hne (w := 'I') rfl, hne (w := '-') rfl]
  rw [readScalar, hnone]

theorem reads_literal {l : Literal} (hl : l.WellFormed) (negative : Bool) {r : List Letter}
    (hr : Ends r) (p : Nat) :
    Reads (readNumber ⟨letters (signText negative) ++ (letters l.text ++ r), p⟩)
      (l.value negative) r := by
  obtain ⟨tail, htail⟩ : ∃ tail, tail = letters (Literal.fractionText l.fraction) ++
    (letters (Literal.exponentText l.exponent) ++ r) := ⟨_, rfl⟩
  have htext : letters l.text ++ r = letters l.whole ++ tail := by simp [Literal.text, htail]
  have hwhole : wholePart (letters l.whole ++ tail) = letters l.whole :=
    hl.wholePart (htail ▸ Literal.takeWhile_fractionText l.fraction l.exponent hr)
  have hne : l.whole.isEmpty = false := by simpa using hl.whole_ne
  have hfraction : fractionPart tail = letters l.fraction :=
    htail ▸ Literal.fractionPart_fractionText hl.fraction l.exponent hr
  have hexp := Literal.exponentPart?_exponentText hl.exponent hr
  have hdrop := Literal.drop_exponentText (r := r) l.exponent
  obtain ⟨p', hsign⟩ := takeSign_signText negative (hl.head?_ne tail) p
  obtain ⟨p'', hafter⟩ : ∃ p'', (if l.fraction.isEmpty then (⟨tail, p' + l.whole.length⟩ : Cursor)
      else ⟨tail.drop (l.fraction.length + 1), p' + l.whole.length + (l.fraction.length + 1)⟩) =
      ⟨letters (Literal.exponentText l.exponent) ++ r, p''⟩ := by
    rw [htail]
    cases hf : l.fraction with
    | nil => exact ⟨_, rfl⟩
    | cons c cs =>
      exact ⟨p' + l.whole.length + ((c :: cs).length + 1), by simp [Literal.fractionText]⟩
  rw [htext, readNumber]
  simp only [hsign, hwhole, isEmpty_letters, hne, Cursor.skip, List.drop_left, hfraction]
  simp only [length_letters, hafter, hexp, ← letters_append, ofDigits_digitsOf, Literal.value,
    l.power_eq, Literal.digits]
  cases hf : l.fraction with
  | cons c cs =>
    exact ⟨p'' + ((Literal.used l.exponent).getD (0, 0)).1, by simp [hdrop, Except.map]⟩
  | nil =>
    cases he : l.exponent with
    | some e =>
      obtain ⟨u, hu⟩ : ∃ u, Literal.used (some e) = some u := ⟨_, rfl⟩
      rw [he, hu, Option.getD_some] at hdrop
      exact ⟨p'' + u.1, by simp [hu, hdrop, Except.map]⟩
    | none =>
      refine ⟨p'', ?_⟩
      by_cases hlong : maxDigits < l.whole.length
      · simp [hlong, Except.map, Literal.used]
      · simp [hlong, Except.map, Literal.used, Literal.exponentText]

theorem readValue_scalar (fuel room : Nat) {c : Letter} (hquote : c ≠ '\x22') (hlist : c ≠ '[')
    (hobject : c ≠ '\x7b') (r : List Letter) (p : Nat) :
    readValue (fuel + 1) room ⟨c :: r, p⟩ = readScalar ⟨c :: r, p⟩ := by
  rw [readValue.eq_def]
  dsimp only
  split
  · rename_i h
    exact absurd (List.cons.inj h).1 hquote
  · rename_i h
    exact absurd (List.cons.inj h).1 hlist
  · rename_i h
    exact absurd (List.cons.inj h).1 hobject
  · rfl

theorem readValue_literal {l : Literal} (hl : l.WellFormed) (negative : Bool) (fuel room : Nat)
    (r : List Letter) (p : Nat) :
    readValue (fuel + 1) room ⟨letters (signText negative) ++ (letters l.text ++ r), p⟩ =
      readNumber ⟨letters (signText negative) ++ (letters l.text ++ r), p⟩ := by
  obtain ⟨c, cs, hcs⟩ := List.exists_cons_of_ne_nil hl.whole_ne
  have hc : c.isDigit = true := hl.whole c (by rw [hcs]; exact List.mem_cons_self)
  have hne {w : Char} (hw : w.isDigit = false) : Letter.char c ≠ w := by
    rintro ⟨⟩
    exact absurd (hc.symm.trans hw) (by decide)
  obtain ⟨tail, htail⟩ : ∃ tail, letters l.text ++ r = .char c :: tail := by
    rw [Literal.text, hcs]
    exact ⟨_, rfl⟩
  rw [htail, ← readScalar_number negative hc]
  cases negative with
  | true => exact readValue_scalar fuel room (by decide) (by decide) (by decide) _ p
  | false => exact readValue_scalar fuel room (hne rfl) (hne rfl) (hne rfl) _ p

/-! ### The layouts of a float -/

namespace Literal

structure Writes (l : Literal) (x : Magnitude) : Prop where
  wellFormed : l.WellFormed
  float : ¬ (l.fraction = [] ∧ l.exponent = none)
  value : Magnitude.ofDecimal l.digits l.power = some x

variable {n m : Nat} {e k : Int} {x : Magnitude}

theorem digits_eq {l : Literal}
    (hl : l.whole ++ l.fraction = List.replicate m '0' ++ Nat.toDigits 10 n) : l.digits = n := by
  rw [digits, hl, Nat.ofDigitChars_append, Nat.ofDigitChars_replicate_zero, Nat.mul_zero,
    Nat.ofDigitChars_ten_toDigits]

def belowOne (n : Nat) (k : Int) : Literal where
  whole := ['0']
  fraction := List.replicate (-k - 1).toNat '0' ++ Nat.toDigits 10 n

def wholeNumber (n : Nat) (k : Int) : Literal where
  whole := Nat.toDigits 10 n ++ List.replicate (k.toNat + 1 - (Nat.toDigits 10 n).length) '0'
  fraction := ['0']

def between (n : Nat) (k : Int) : Literal where
  whole := (Nat.toDigits 10 n).take (k.toNat + 1)
  fraction := (Nat.toDigits 10 n).drop (k.toNat + 1)

def scientific (st : Style) (n : Nat) (k : Int) : Literal where
  whole := (Nat.toDigits 10 n).take 1
  fraction := (Nat.toDigits 10 n).drop 1
  exponent := some (k < 0, Style.pad st.exponentWidth (Nat.toDigits 10 k.natAbs))

theorem fractionText_of_ne_nil {ds : List Char} (h : ds ≠ []) : fractionText ds = '.' :: ds := by
  cases ds with
  | nil => exact absurd rfl h
  | cons c ds => rfl

theorem text_belowOne (hneg : k < 0) :
    (belowOne n k).text = Style.positional (Nat.toDigits 10 n) k := by
  have hne : List.replicate (-k - 1).toNat '0' ++ Nat.toDigits 10 n ≠ [] := by
    simp [Nat.toDigits_ne_nil]
  rw [text, belowOne, fractionText_of_ne_nil hne, Style.positional, if_pos hneg]
  simp [exponentText]

theorem text_wholeNumber (hpos : ¬ k < 0) (hlen : (Nat.toDigits 10 n).length ≤ k.toNat + 1) :
    (wholeNumber n k).text = Style.positional (Nat.toDigits 10 n) k := by
  rw [text, wholeNumber, Style.positional, if_neg hpos]
  simp [fractionText, exponentText, hlen]

theorem text_between (hpos : ¬ k < 0) (hlen : ¬ (Nat.toDigits 10 n).length ≤ k.toNat + 1) :
    (between n k).text = Style.positional (Nat.toDigits 10 n) k := by
  have hne : (Nat.toDigits 10 n).drop (k.toNat + 1) ≠ [] := by
    rwa [ne_eq, List.drop_eq_nil_iff]
  rw [text, between, fractionText_of_ne_nil hne, Style.positional, if_neg hpos]
  simp [exponentText, hlen]

theorem text_scientific (st : Style) :
    (scientific st n k).text = st.scientific (Nat.toDigits 10 n) k := by
  match hds : Nat.toDigits 10 n with
  | [] => exact absurd hds Nat.toDigits_ne_nil
  | [c] => simp [text, scientific, Style.scientific, hds, fractionText, exponentText]
  | c :: d :: ds => simp [text, scientific, Style.scientific, hds, fractionText, exponentText]

def zero : Literal where
  whole := ['0']
  fraction := ['0']

theorem writes_zero (hx : x.mantissa = 0) : zero.Writes x where
  wellFormed :=
    { whole := by simp [zero, IsDigits]
      whole_ne := by simp [zero]
      leading := Or.inl rfl
      fraction := by simp [zero, IsDigits]
      exponent := by simp [zero] }
  float := by simp [zero]
  value := by
    have hsame : Magnitude.zero = x := by
      obtain ⟨m, e, hcanonical⟩ := x
      obtain rfl : m = 0 := hx
      obtain rfl : e = -1074 := hcanonical.2.2.2.resolve_left (by decide)
      rfl
    rw [← hsame]
    decide

theorem writes_belowOne (hvalue : Magnitude.ofDecimal n e = some x)
    (hk : k = e + (Nat.toDigits 10 n).length - 1) (hneg : k < 0) : (belowOne n k).Writes x where
  wellFormed :=
    { whole := by simp [belowOne, IsDigits]
      whole_ne := by simp [belowOne]
      leading := Or.inl rfl
      fraction := (isDigits_replicate _).append (isDigits_toDigits n)
      exponent := by simp [belowOne] }
  float := by simp [belowOne, Nat.toDigits_ne_nil]
  value := by
    have hdigits : (belowOne n k).digits = n := digits_eq (m := (-k - 1).toNat + 1) (by
      rw [List.replicate_succ]; rfl)
    have hpower : (belowOne n k).power = e := by
      simp only [belowOne, power, List.length_append, List.length_replicate]
      omega
    rw [hdigits, hpower, hvalue]

theorem isDigits_take {ds : List Char} (h : IsDigits ds) (i : Nat) : IsDigits (ds.take i) :=
  fun c hc => h c (List.mem_of_mem_take hc)

theorem isDigits_drop {ds : List Char} (h : IsDigits ds) (i : Nat) : IsDigits (ds.drop i) :=
  fun c hc => h c (List.mem_of_mem_drop hc)

theorem head?_take_toDigits (hn : n ≠ 0) (i : Nat) :
    ((Nat.toDigits 10 n).take (i + 1)).head? ≠ some '0' := by
  have hne := head?_toDigits_ne hn
  cases hds : Nat.toDigits 10 n with
  | nil => exact absurd hds Nat.toDigits_ne_nil
  | cons c cs => rwa [hds] at hne

theorem writes_wholeNumber (hn : n ≠ 0) (hvalue : Magnitude.ofDecimal n e = some x)
    (hk : k = e + (Nat.toDigits 10 n).length - 1) (hpos : 0 ≤ k)
    (hlen : (Nat.toDigits 10 n).length ≤ k.toNat + 1) : (wholeNumber n k).Writes x where
  wellFormed :=
    { whole := (isDigits_toDigits n).append (isDigits_replicate _)
      whole_ne := by simp [wholeNumber, Nat.toDigits_ne_nil]
      leading := by
        right
        rw [wholeNumber, List.head?_append_of_ne_nil _ Nat.toDigits_ne_nil]
        exact head?_toDigits_ne hn
      fraction := by simp [wholeNumber, IsDigits]
      exponent := by simp [wholeNumber] }
  float := by simp [wholeNumber]
  value := by
    set zeros := k.toNat + 1 - (Nat.toDigits 10 n).length with hzeros
    have hdigits : (wholeNumber n k).digits = n * 10 ^ (zeros + 1) := by
      rw [digits, wholeNumber, List.append_assoc, ← List.replicate_succ', Nat.ofDigitChars_append,
        Nat.ofDigitChars_ten_toDigits, Nat.ofDigitChars_replicate_zero, Nat.mul_comm]
    have hpower : (wholeNumber n k).power = e - (zeros + 1 : Nat) := by
      simp only [wholeNumber, power, List.length_singleton]
      omega
    rw [hdigits, hpower, Magnitude.ofDecimal_mul_pow (Nat.pos_of_ne_zero hn), hvalue]

theorem writes_between (hn : n ≠ 0) (hvalue : Magnitude.ofDecimal n e = some x)
    (hk : k = e + (Nat.toDigits 10 n).length - 1) (hpos : 0 ≤ k)
    (hlen : k.toNat + 1 < (Nat.toDigits 10 n).length) : (between n k).Writes x where
  wellFormed :=
    { whole := isDigits_take (isDigits_toDigits n) _
      whole_ne := by simp [between, Nat.toDigits_ne_nil]
      leading := Or.inr (head?_take_toDigits hn _)
      fraction := isDigits_drop (isDigits_toDigits n) _
      exponent := by simp [between] }
  float := by
    simp only [between, List.drop_eq_nil_iff]
    omega
  value := by
    have hdigits : (between n k).digits = n := digits_eq (m := 0) (List.take_append_drop _ _)
    have hpower : (between n k).power = e := by
      simp only [between, power, List.length_drop]
      omega
    rw [hdigits, hpower, hvalue]

theorem isDigits_pad {ds : List Char} (h : IsDigits ds) (width : Nat) :
    IsDigits (Style.pad width ds) :=
  (isDigits_replicate _).append h

theorem ofDigitChars_pad (width n : Nat) :
    Nat.ofDigitChars 10 (Style.pad width (Nat.toDigits 10 n)) 0 = n := by
  rw [Style.pad, Nat.ofDigitChars_append, Nat.ofDigitChars_replicate_zero, Nat.mul_zero,
    Nat.ofDigitChars_ten_toDigits]

theorem writes_scientific (st : Style) (hn : n ≠ 0) (hvalue : Magnitude.ofDecimal n e = some x)
    (hk : k = e + (Nat.toDigits 10 n).length - 1) : (scientific st n k).Writes x where
  wellFormed :=
    { whole := isDigits_take (isDigits_toDigits n) _
      whole_ne := by simp [scientific, Nat.toDigits_ne_nil]
      leading := Or.inr (head?_take_toDigits hn _)
      fraction := isDigits_drop (isDigits_toDigits n) _
      exponent := by
        rintro _ ⟨⟩
        exact ⟨isDigits_pad (isDigits_toDigits _) _, by simp [Style.pad, Nat.toDigits_ne_nil]⟩ }
  float := by simp [scientific]
  value := by
    have hpos : 0 < (Nat.toDigits 10 n).length := List.length_pos_iff.mpr Nat.toDigits_ne_nil
    have hdigits : (scientific st n k).digits = n := digits_eq (m := 0) (List.take_append_drop _ _)
    have hpower : (scientific st n k).power = e := by
      simp only [scientific, power, List.length_drop, ofDigitChars_pad]
      by_cases hneg : k < 0
      · simp only [hneg, decide_true, if_true]
        omega
      · simp only [hneg, decide_false, Bool.false_eq_true, if_false]
        omega
    rw [hdigits, hpower, hvalue]

end Literal

/-- Whatever the style, a number is written as a literal of it. -/
theorem exists_literal (st : Style) (x : Magnitude) :
    ∃ l : Literal, l.text = st.magnitude x ∧ l.Writes x := by
  by_cases hx : x.mantissa = 0
  · exact ⟨.zero, by rw [Style.magnitude, if_pos hx]; rfl, Literal.writes_zero hx⟩
  have hvalue := Magnitude.ofDecimal_shortest hx
  have hn := Magnitude.shortest_digits_ne_zero hx
  set n := x.shortest.digits with hdigits
  set k : Int := x.shortest.exponent + (Nat.toDigits 10 n).length - 1 with hk
  have hmagnitude : st.magnitude x = if st.lowest ≤ k ∧ k ≤ st.highest
      then Style.positional (Nat.toDigits 10 n) k else st.scientific (Nat.toDigits 10 n) k := by
    rw [Style.magnitude, if_neg hx]
  rw [hmagnitude]
  split
  · by_cases hneg : k < 0
    · exact ⟨.belowOne n k, Literal.text_belowOne hneg, Literal.writes_belowOne hvalue hk hneg⟩
    · by_cases hlen : (Nat.toDigits 10 n).length ≤ k.toNat + 1
      · exact ⟨.wholeNumber n k, Literal.text_wholeNumber hneg hlen,
          Literal.writes_wholeNumber hn hvalue hk (by omega) hlen⟩
      · exact ⟨.between n k, Literal.text_between hneg hlen,
          Literal.writes_between hn hvalue hk (by omega) (by omega)⟩
  · exact ⟨.scientific st n k, Literal.text_scientific st,
      Literal.writes_scientific st hn hvalue hk⟩

theorem toList_render (st : Style) (negative : Bool) (x : Magnitude) :
    (st.render (.finite negative x)).toList = signText negative ++ st.magnitude x := by
  cases negative <;> simp [Style.render, signText]

/-- The text of a finite float reads back as the float, in every style. -/
theorem reads_render (st : Style) (negative : Bool) (x : Magnitude) (fuel room : Nat)
    {r : List Letter} (hr : Ends r) (p : Nat) :
    Reads (readValue (fuel + 1) room ⟨letters (st.render (.finite negative x)).toList ++ r, p⟩)
      (.ok (.float (.finite negative x))) r := by
  obtain ⟨l, hl, hwrites⟩ := exists_literal st x
  have hread := reads_literal hwrites.wellFormed negative hr p
  rw [Literal.value, if_neg hwrites.float, Binary64.ofDecimal, hwrites.value] at hread
  rwa [toList_render, letters_append, List.append_assoc, ← hl,
    readValue_literal hwrites.wellFormed]

theorem toList_toString_int (n : Int) :
    (toString n).toList = signText (n < 0) ++ Nat.toDigits 10 n.natAbs := by
  cases n with
  | ofNat n =>
    have hneg : ¬ (Int.ofNat n < 0) := by simp
    have htext : toString (Int.ofNat n) = n.repr := rfl
    rw [htext, Nat.toList_repr, decide_eq_false hneg]
    rfl
  | negSucc n =>
    have hneg : Int.negSucc n < 0 := Int.negSucc_lt_zero n
    have htext : toString (Int.negSucc n) = "-" ++ (n + 1).repr := rfl
    rw [htext, String.toList_append, Nat.toList_repr, decide_eq_true hneg]
    rfl

theorem signed_natAbs (n : Int) :
    (if decide (n < 0) then -(n.natAbs : Int) else n.natAbs) = n := by
  by_cases hneg : n < 0
  · simp only [hneg, decide_true, if_true]
    omega
  · simp only [hneg, decide_false, Bool.false_eq_true, if_false]
    omega

theorem reads_int (n : Int) (fuel room : Nat) {r : List Letter} (hr : Ends r) (p : Nat) :
    Reads (readValue (fuel + 1) room ⟨letters (toString n).toList ++ r, p⟩)
      (if maxDigits < (Nat.toDigits 10 n.natAbs).length
        then .error (.tooLong (Nat.toDigits 10 n.natAbs).length) else .ok (.int n)) r := by
  have hwell : Literal.WellFormed ⟨Nat.toDigits 10 n.natAbs, [], none⟩ :=
    { whole := isDigits_toDigits _
      whole_ne := Nat.toDigits_ne_nil
      leading := by
        by_cases hn : n.natAbs = 0
        · exact Or.inl (by rw [hn]; rfl)
        · exact Or.inr (head?_toDigits_ne hn)
      fraction := by simp [IsDigits]
      exponent := by simp }
  have hread := reads_literal hwell (n < 0) hr p
  have hdigits : Literal.digits ⟨Nat.toDigits 10 n.natAbs, [], none⟩ = n.natAbs :=
    Literal.digits_eq (m := 0) (List.append_nil _)
  rw [Literal.value, if_pos ⟨rfl, rfl⟩, hdigits, signed_natAbs] at hread
  rw [← readValue_literal hwell (n < 0) fuel room] at hread
  rw [toList_toString_int, letters_append, List.append_assoc]
  simpa [Literal.text, Literal.fractionText, Literal.exponentText] using hread

theorem reads_word {w : List Letter × Value} (hw : w ∈ words) (fuel room : Nat) (r : List Letter)
    (p : Nat) : Reads (readValue (fuel + 1) room ⟨w.1 ++ r, p⟩) (.ok w.2) r := by
  simp only [words, List.mem_cons, List.not_mem_nil, or_false] at hw
  rcases hw with rfl | rfl | rfl | rfl | rfl | rfl <;> exact ⟨_, rfl⟩

end Paging.Json
