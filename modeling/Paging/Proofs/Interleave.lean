import Mathlib.Data.List.Forall2
import Paging.Interleave

/-! What the repair of connectors keeps: the operands in their order, and no element
that was not there except the connector that is filled in. What it makes: operands and
connectors that take turns, which it leaves as they are. -/
namespace Paging

variable {α β : Type} {isConnector : α → Bool} {fill : α}

theorem interleave_eq_tail (pending : Option α) (xs : List α) :
    interleave isConnector fill xs = (interleaveAfter isConnector fill pending xs).tail := by
  induction xs generalizing pending with
  | nil => rfl
  | cons x xs ih =>
    rw [interleave, interleaveAfter]
    split
    · exact ih _
    · rfl

theorem mem_interleaveAfter {pending : Option α} {xs : List α} {y : α}
    (h : y ∈ interleaveAfter isConnector fill pending xs) :
    y ∈ xs ∨ some y = pending ∨ y = fill := by
  induction xs generalizing pending with
  | nil => simp [interleaveAfter] at h
  | cons x xs ih =>
    rw [interleaveAfter] at h
    split at h
    · rcases ih h with h | h | h
      · exact Or.inl (List.mem_cons_of_mem x h)
      · cases pending with
        | none => exact Or.inl (by simpa using Or.inl h)
        | some z => exact Or.inr (Or.inl (by simpa using h))
      · exact Or.inr (Or.inr h)
    · rcases List.mem_cons.mp h with h | h
      · cases pending with
        | none => exact Or.inr (Or.inr h)
        | some z => exact Or.inr (Or.inl (congrArg some h))
      · rcases List.mem_cons.mp h with h | h
        · exact Or.inl (h ▸ List.mem_cons_self)
        · rcases ih h with h | h | h
          · exact Or.inl (List.mem_cons_of_mem x h)
          · cases h
          · exact Or.inr (Or.inr h)

theorem mem_interleave {xs : List α} {y : α} (h : y ∈ interleave isConnector fill xs) :
    y ∈ xs ∨ y = fill := by
  rw [interleave_eq_tail none] at h
  rcases mem_interleaveAfter (List.mem_of_mem_tail h) with h | h | h
  · exact Or.inl h
  · cases h
  · exact Or.inr h

theorem flatMap_interleaveAfter (g : α → List β) (hg : ∀ x, isConnector x = true → g x = [])
    (hfill : isConnector fill = true) (pending : Option α)
    (hpending : ∀ x ∈ pending, isConnector x = true) (xs : List α) :
    (interleaveAfter isConnector fill pending xs).flatMap g = xs.flatMap g := by
  induction xs generalizing pending with
  | nil => rfl
  | cons x xs ih =>
    rw [interleaveAfter]
    split
    · rename_i hx
      rw [ih, List.flatMap_cons, hg x hx, List.nil_append]
      intro y hy
      cases pending with
      | none => cases hy; exact hx
      | some z => exact hpending y hy
    · have hsep : g (pending.getD fill) = [] := by
        cases pending with
        | none => exact hg fill hfill
        | some z => exact hg z (hpending z rfl)
      rw [List.flatMap_cons, List.flatMap_cons, List.flatMap_cons, hsep, List.nil_append,
        ih none (by simp)]

theorem flatMap_interleave (g : α → List β) (hg : ∀ x, isConnector x = true → g x = [])
    (hfill : isConnector fill = true) (xs : List α) :
    (interleave isConnector fill xs).flatMap g = xs.flatMap g := by
  induction xs with
  | nil => rfl
  | cons x xs ih =>
    rw [interleave]
    split
    · rename_i hx
      rw [ih, List.flatMap_cons, hg x hx, List.nil_append]
    · rw [List.flatMap_cons, List.flatMap_cons, flatMap_interleaveAfter g hg hfill none (by simp)]

theorem interleaveAfter_map {isConnector' : β → Bool} (g : α → β)
    (hg : ∀ x, isConnector' (g x) = isConnector x) (pending : Option α) (xs : List α) :
    interleaveAfter isConnector' (g fill) (pending.map g) (xs.map g) =
      (interleaveAfter isConnector fill pending xs).map g := by
  induction xs generalizing pending with
  | nil => rfl
  | cons x xs ih =>
    rw [List.map_cons, interleaveAfter, interleaveAfter, hg]
    split
    · rw [← ih]
      cases pending <;> rfl
    · rw [List.map_cons, List.map_cons, ← ih]
      cases pending <;> rfl

theorem interleave_map {isConnector' : β → Bool} (g : α → β)
    (hg : ∀ x, isConnector' (g x) = isConnector x) (xs : List α) :
    interleave isConnector' (g fill) (xs.map g) = (interleave isConnector fill xs).map g := by
  rw [interleave_eq_tail none, interleave_eq_tail none, List.map_tail]
  exact congrArg List.tail (interleaveAfter_map g hg none xs)

/-! ### Two lists in step -/

theorem forall₂_interleaveAfter {R : α → β → Prop} {isConnector' : β → Bool} {fill' : β}
    (hR : ∀ x y, R x y → isConnector x = isConnector' y) (hfill : R fill fill')
    {pending : Option α} {pending' : Option β} (hpending : Option.Rel R pending pending')
    {xs : List α} {ys : List β} (h : List.Forall₂ R xs ys) :
    List.Forall₂ R (interleaveAfter isConnector fill pending xs)
      (interleaveAfter isConnector' fill' pending' ys) := by
  induction h generalizing pending pending' with
  | nil => exact .nil
  | cons hxy _ ih =>
    rw [interleaveAfter, interleaveAfter, hR _ _ hxy]
    split
    · apply ih
      cases hpending with
      | none => exact .some hxy
      | some hk => exact .some hk
    · refine .cons ?_ (.cons hxy (ih .none))
      cases hpending with
      | none => exact hfill
      | some hk => exact hk

theorem forall₂_interleave {R : α → β → Prop} {isConnector' : β → Bool} {fill' : β}
    (hR : ∀ x y, R x y → isConnector x = isConnector' y) (hfill : R fill fill')
    {xs : List α} {ys : List β} (h : List.Forall₂ R xs ys) :
    List.Forall₂ R (interleave isConnector fill xs) (interleave isConnector' fill' ys) := by
  induction h with
  | nil => exact .nil
  | cons hxy h ih =>
    rw [interleave, interleave, hR _ _ hxy]
    split
    · exact ih
    · exact .cons hxy (forall₂_interleaveAfter hR hfill .none h)

/-! ### Taking turns -/

/-- Connectors and operands take turns, a connector first and an operand last. -/
def AlternatesAfter (isConnector : α → Bool) : List α → Prop
  | [] => True
  | [_] => False
  | k :: x :: r => isConnector k = true ∧ isConnector x = false ∧ AlternatesAfter isConnector r

/-- Operands and connectors take turns, with an operand at both ends. -/
def Alternates (isConnector : α → Bool) : List α → Prop
  | [] => False
  | x :: r => isConnector x = false ∧ AlternatesAfter isConnector r

theorem alternatesAfter_interleaveAfter (hfill : isConnector fill = true) (pending : Option α)
    (hpending : ∀ k ∈ pending, isConnector k = true) (xs : List α) :
    AlternatesAfter isConnector (interleaveAfter isConnector fill pending xs) := by
  induction xs generalizing pending with
  | nil => trivial
  | cons x xs ih =>
    rw [interleaveAfter]
    by_cases hx : isConnector x = true
    · rw [if_pos hx]
      refine ih _ fun k hk => ?_
      cases pending with
      | none => exact Option.mem_some.mp hk ▸ hx
      | some k' => exact hpending k hk
    · have hk : isConnector (pending.getD fill) = true := by
        cases pending with
        | none => exact hfill
        | some k => exact hpending k rfl
      rw [if_neg hx]
      exact ⟨hk, by simpa using hx, ih none (by simp)⟩

/-- The repaired list alternates, unless there is no operand. -/
theorem alternates_interleave (hfill : isConnector fill = true) {xs : List α}
    (h : interleave isConnector fill xs ≠ []) :
    Alternates isConnector (interleave isConnector fill xs) := by
  induction xs with
  | nil => exact absurd rfl h
  | cons x xs ih =>
    rw [interleave] at h ⊢
    by_cases hx : isConnector x = true
    · rw [if_pos hx] at h ⊢
      exact ih h
    · rw [if_neg hx]
      exact ⟨by simpa using hx, alternatesAfter_interleaveAfter hfill none (by simp) xs⟩

theorem interleaveAfter_eq_self : ∀ {xs : List α}, AlternatesAfter isConnector xs →
    interleaveAfter isConnector fill none xs = xs
  | [], _ => rfl
  | k :: x :: r, ⟨hk, hx, hr⟩ => by
    simp [interleaveAfter, hk, hx, interleaveAfter_eq_self hr]

/-- A list that alternates needs no repair. -/
theorem interleave_eq_self {xs : List α} (h : Alternates isConnector xs) :
    interleave isConnector fill xs = xs := by
  cases xs with
  | nil => exact h.elim
  | cons x r =>
    obtain ⟨hx, hr⟩ := h
    simp [interleave, hx, interleaveAfter_eq_self hr]

end Paging
