import Paging.Proofs.StringText

/-! How the text of a value starts and how its parts are joined. The first character tells
strings, lists, objects and scalars apart; the text of a scalar reads back as the scalar,
unless it is an integer of too many digits. -/
namespace Paging.Json

def OpensScalar (c : Letter) : Prop := c.isAlphanum = true ∨ c = '-'

theorem OpensScalar.ne {c d : Letter} (hc : OpensScalar c) (hd : d.isAlphanum = false)
    (hsign : d ≠ '-') : c ≠ d := by
  rintro rfl
  rcases hc with hc | hc
  · exact absurd (hc.symm.trans hd) (by decide)
  · exact hsign hc

theorem OpensScalar.of_isDigit {c : Char} (hc : c.isDigit = true) : OpensScalar c := by
  left
  simp [Letter.isAlphanum, Char.isAlphanum, hc]

namespace Form

/-- The text of a float reads back as the float. -/
structure Writes (f : Form) (x : Decimal.Binary64) : Prop where
  opens : ∃ c cs, letters (f.float x).toList = c :: cs ∧ OpensScalar c
  reads : ∀ fuel room {r : List Letter}, Ends r → ∀ p,
    Reads (readValue (fuel + 1) room ⟨letters (f.float x).toList ++ r, p⟩) (.ok (.float x)) r

end Form

open Decimal

theorem opens_render (st : Style) (negative : Bool) (x : Magnitude) :
    ∃ c cs, letters (st.render (.finite negative x)).toList = c :: cs ∧ OpensScalar c := by
  obtain ⟨l, hl, hwrites⟩ := exists_literal st x
  obtain ⟨c, cs, hcs⟩ := List.exists_cons_of_ne_nil hwrites.wellFormed.whole_ne
  have hc : c.isDigit = true := hwrites.wellFormed.whole c (by rw [hcs]; exact List.mem_cons_self)
  have htext : l.text = c :: (cs ++ (Literal.fractionText l.fraction ++
      Literal.exponentText l.exponent)) := by
    rw [Literal.text, hcs]
    rfl
  rw [toList_render, ← hl, htext]
  cases negative with
  | true => exact ⟨'-', _, rfl, Or.inr rfl⟩
  | false => exact ⟨c, _, rfl, .of_isDigit hc⟩

theorem stored_writes (negative : Bool) (x : Magnitude) : stored.Writes (.finite negative x) where
  opens := opens_render _ negative x
  reads := fun fuel room _ hr p => reads_render _ negative x fuel room hr p

theorem canonical_writes (x : Binary64) : canonical.Writes x := by
  cases x with
  | nan =>
    exact ⟨⟨'N', _, rfl, Or.inl (by decide)⟩, fun fuel room _ _ p =>
      reads_word (w := (letters "NaN".toList, .float .nan)) (by simp [words]) fuel room _ p⟩
  | infinite negative =>
    cases negative with
    | true =>
      exact ⟨⟨'-', _, rfl, Or.inr rfl⟩, fun fuel room _ _ p =>
        reads_word (w := (letters "-Infinity".toList, .float (.infinite true))) (by simp [words])
          fuel room _ p⟩
    | false =>
      exact ⟨⟨'I', _, rfl, Or.inl (by decide)⟩, fun fuel room _ _ p =>
        reads_word (w := (letters "Infinity".toList, .float (.infinite false))) (by simp [words])
          fuel room _ p⟩
  | finite negative x =>
    exact ⟨opens_render _ negative x, fun fuel room _ hr p =>
      reads_render _ negative x fuel room hr p⟩

/-! ### The first character -/

/-- The mark that a value starts with; scalars have none. -/
def mark : Value → Option Letter
  | .text _ | .bytes _ => some ('\x22' : Letter)
  | .list _ | .tuple _ => some ('[' : Letter)
  | .object _ => some ('\x7b' : Letter)
  | .null | .bool _ | .int _ | .float _ => none

/-- How the text of a value starts. -/
def Opens (v : Value) (c : Letter) : Prop :=
  match mark v with
  | some d => c = d
  | none => OpensScalar c

theorem mem_marks {v : Value} {d : Letter} (h : mark v = some d) :
    d = '\x22' ∨ d = '[' ∨ d = '\x7b' := by
  cases v <;> cases h <;> simp

theorem Opens.ne {v : Value} {c : Letter} (h : Opens v c) :
    c ≠ ']' ∧ c ≠ '\x7d' ∧ isSpace c = false := by
  rw [Opens] at h
  cases hv : mark v with
  | some d =>
    rw [hv] at h
    obtain rfl : c = d := h
    rcases mem_marks hv with rfl | rfl | rfl <;> decide
  | none =>
    rw [hv] at h
    have hc : OpensScalar c := h
    refine ⟨hc.ne rfl (by decide), hc.ne rfl (by decide), ?_⟩
    simp [isSpace, hc.ne (d := ' ') rfl (by decide), hc.ne (d := '\t') rfl (by decide),
      hc.ne (d := '\n') rfl (by decide), hc.ne (d := '\r') rfl (by decide)]

theorem Opens.mark_eq {v w : Value} {c : Letter} (hv : Opens v c) (hw : Opens w c) :
    mark v = mark w := by
  have hne {d : Letter} (hd : d = '\x22' ∨ d = '[' ∨ d = '\x7b') : ¬ OpensScalar d := by
    rcases hd with rfl | rfl | rfl <;> exact fun h => h.ne rfl (by decide) rfl
  rw [Opens] at hv hw
  cases hmv : mark v with
  | some d =>
    cases hmw : mark w with
    | some e => rw [hmv] at hv; rw [hmw] at hw; exact congrArg some (hv.symm.trans hw)
    | none => rw [hmv] at hv; rw [hmw] at hw; exact absurd (hv ▸ hw) (hne (mem_marks hmv))
  | none =>
    cases hmw : mark w with
    | some e => rw [hmv] at hv; rw [hmw] at hw; exact absurd (hw ▸ hv) (hne (mem_marks hmw))
    | none => rfl

theorem opens_chars (f : Form) {v : Value} (hfloat : ∀ x, v = .float x → f.Writes x) :
    ∃ c cs, f.chars v = c :: cs ∧ Opens v c := by
  cases v with
  | null => exact ⟨'n', _, rfl, Or.inl rfl⟩
  | bool b => cases b <;> exact ⟨_, _, rfl, Or.inl rfl⟩
  | int n =>
    obtain ⟨c, cs, hcs⟩ :=
      List.exists_cons_of_ne_nil (Nat.toDigits_ne_nil (b := 10) (n := n.natAbs))
    have hc : c.isDigit = true :=
      isDigits_toDigits n.natAbs c (by rw [hcs]; exact List.mem_cons_self)
    rw [Form.chars, toList_toString_int, hcs]
    cases decide (n < 0) with
    | true => exact ⟨'-', _, rfl, Or.inr rfl⟩
    | false => exact ⟨c, _, rfl, .of_isDigit hc⟩
  | float x => exact (hfloat x rfl).opens
  | text s | bytes b => exact ⟨_, _, rfl, rfl⟩
  | list xs | tuple xs | object fields => exact ⟨_, _, rfl, rfl⟩

/-! ### Scalars -/

def IsScalar (v : Value) : Prop := mark v = none

def scalarOutcome : Value → Except Error Value
  | .int n =>
    if maxDigits < (Nat.toDigits 10 n.natAbs).length
      then .error (.tooLong (Nat.toDigits 10 n.natAbs).length) else .ok (.int n)
  | v => .ok v

theorem reads_scalar (f : Form) {v : Value} (hv : IsScalar v)
    (hfloat : ∀ x, v = .float x → f.Writes x) (fuel room : Nat) {r : List Letter} (hr : Ends r)
    (p : Nat) : Reads (readValue (fuel + 1) room ⟨f.chars v ++ r, p⟩) (scalarOutcome v) r := by
  cases v with
  | null => exact reads_word (w := (letters "null".toList, .null)) (by simp [words]) fuel room r p
  | bool b =>
    cases b with
    | true =>
      exact reads_word (w := (letters "true".toList, .bool true)) (by simp [words]) fuel room r p
    | false =>
      exact reads_word (w := (letters "false".toList, .bool false)) (by simp [words]) fuel room r p
  | int n => exact reads_int n fuel room hr p
  | float x => exact (hfloat x rfl).reads fuel room hr p
  | text s | bytes b | list xs | tuple xs | object fields => cases hv

/-! ### Lists and objects -/

theorem commas_singleton (piece : List Letter) : Form.commas [piece] = piece := by
  simp [Form.commas]

theorem commas_cons_cons (piece next : List Letter) (pieces : List (List Letter)) :
    Form.commas (piece :: next :: pieces) = piece ++ .char ',' :: Form.commas (next :: pieces) := by
  simp [Form.commas, List.intercalate_cons_cons]

theorem commas_cons (piece : List Letter) (pieces : List (List Letter)) :
    Form.commas (piece :: pieces) = piece ++ pieces.flatMap fun q => .char ',' :: q := by
  induction pieces generalizing piece with
  | nil => simp [commas_singleton]
  | cons q pieces ih =>
    rw [commas_cons_cons, ih, List.flatMap_cons]
    rfl

def memberTexts (f : Form) (fields : Fields) : List (List Letter) :=
  (f.fieldChars fields).map fun m => f.stringText m.1 ++ .char ':' :: m.2

theorem chars_list (f : Form) (xs : List Value) (r : List Letter) :
    f.chars (.list xs) ++ r = .char '[' :: (Form.commas (f.listChars xs) ++ .char ']' :: r) := by
  simp [Form.chars]

theorem chars_object {f : Form} (hf : f.sorted = false) (fields : Fields) (r : List Letter) :
    f.chars (.object fields) ++ r =
      .char '\x7b' :: (Form.commas (memberTexts f fields) ++ .char '\x7d' :: r) := by
  simp [Form.chars, Form.arrange, hf, memberTexts]

end Paging.Json
