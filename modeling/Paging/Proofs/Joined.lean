import Mathlib.Data.List.Chain
import Paging.Json.Printer
import Paging.Json.Reader

/-! Texts without a split pair: no first half of a surrogate pair stands directly in front of a
second half. Canonical JSON cannot tell the two from the character that they make up; of all other
texts, those with halves that stand alone included, it tells every two apart. -/
namespace Paging

namespace Letter

/-- The first half of a surrogate pair. -/
def IsHigh (c : Letter) : Prop := Json.isHighSurrogate c.toNat = true

/-- The second half of a surrogate pair. -/
def IsLow (c : Letter) : Prop := Json.isLowSurrogate c.toNat = true

instance (c : Letter) : Decidable c.IsHigh := inferInstanceAs (Decidable (_ = _))

instance (c : Letter) : Decidable c.IsLow := inferInstanceAs (Decidable (_ = _))

theorem not_isHigh_char (c : Char) : ¬ (char c).IsHigh := by
  have hvalid := Letter.toNat_valid c
  simp only [IsHigh, Json.isHighSurrogate, toNat_char, Bool.and_eq_true, decide_eq_true_eq]
  omega

end Letter

/-- A letter does not complete the one in front of it to a surrogate pair. -/
def Letter.Apart (c d : Letter) : Prop := ¬ (c.IsHigh ∧ d.IsLow)

instance (c d : Letter) : Decidable (c.Apart d) := inferInstanceAs (Decidable (¬ _))

def Text.IsJoined (s : Text) : Prop := s.toList.IsChain Letter.Apart

instance (s : Text) : Decidable s.IsJoined := inferInstanceAs (Decidable (List.IsChain _ _))

/-- The character U+1F600, outside the basic plane. -/
def Text.astral : Text := "😀"

/-- The two halves of the pair that the character U+1F600 is escaped to, as two code points. -/
def Text.splitPair : Text := .ofList [.half 0x3d, .half 0x600]

theorem Json.stringText_splitPair :
    Json.canonical.stringText Text.astral = Json.canonical.stringText Text.splitPair := by
  decide

theorem Text.isJoined_of_isWhole {s : Text} (h : s.isWhole = true) : s.IsJoined := by
  have hall (cs : List Letter) (hcs : (cs.all fun c => c.char?.isSome) = true) :
      cs.IsChain Letter.Apart := by
    induction cs with
    | nil => exact .nil
    | cons c cs ih =>
      obtain ⟨hc, hcs⟩ := Bool.and_eq_true_iff.mp hcs
      refine List.isChain_cons.mpr ⟨fun d _ hpair => ?_, ih hcs⟩
      cases c with
      | char c => exact Letter.not_isHigh_char c hpair.1
      | half n => cases hc
  exact hall s.toList h

namespace Value

mutual

/-- All texts in the value are joined. -/
def IsJoined : Value → Prop
  | .text s => s.IsJoined
  | .list xs => IsJoinedList xs
  | .tuple xs => IsJoinedList xs
  | .object fields => IsJoinedFields fields
  | .null | .bool _ | .int _ | .float _ | .bytes _ => True

def IsJoinedList : List Value → Prop
  | [] => True
  | x :: xs => x.IsJoined ∧ IsJoinedList xs

def IsJoinedFields : List (Text × Value) → Prop
  | [] => True
  | (k, x) :: r => k.IsJoined ∧ x.IsJoined ∧ IsJoinedFields r

end

mutual

theorem isJoined_of_isWhole : ∀ {v : Value}, v.isWhole = true → v.IsJoined
  | .text _, h => Text.isJoined_of_isWhole h
  | .list _, h | .tuple _, h => isJoinedList_of_isWhole h
  | .object _, h => isJoinedFields_of_isWhole h
  | .null, _ | .bool _, _ | .int _, _ | .float _, _ | .bytes _, _ => trivial

theorem isJoinedList_of_isWhole : ∀ {xs : List Value}, isWholeList xs = true → IsJoinedList xs
  | [], _ => trivial
  | _ :: _, h => by
    obtain ⟨hx, hxs⟩ := Bool.and_eq_true_iff.mp h
    exact ⟨isJoined_of_isWhole hx, isJoinedList_of_isWhole hxs⟩

theorem isJoinedFields_of_isWhole : ∀ {fields : Fields}, isWholeFields fields = true →
    IsJoinedFields fields
  | [], _ => trivial
  | (_, _) :: _, h => by
    obtain ⟨hkx, hr⟩ := Bool.and_eq_true_iff.mp h
    obtain ⟨hk, hx⟩ := Bool.and_eq_true_iff.mp hkx
    exact ⟨Text.isJoined_of_isWhole hk, isJoined_of_isWhole hx, isJoinedFields_of_isWhole hr⟩

end

end Value

end Paging
