import Paging.Proofs.Interleave

/-! Two repairs. A list of operands and connectors is repaired, some of its operands are dropped,
and what is left is repaired again. An operand that is dropped then makes a difference in one case
only: where its neighbours had no connector in front of it but one behind it, the connector that the
first repair filled in is kept in place of theirs. -/
namespace Paging

variable {α : Type} {isConnector : α → Bool} {fill : α}

/-! ### One list behind another -/

/-- The connector that is pending behind a list: the first since its last operand. -/
def pendingAfter (isConnector : α → Bool) (pending : Option α) : List α → Option α
  | [] => pending
  | x :: r =>
    if isConnector x then pendingAfter isConnector (pending.or (some x)) r
    else pendingAfter isConnector none r

theorem interleaveAfter_append (pending : Option α) (xs ys : List α) :
    interleaveAfter isConnector fill pending (xs ++ ys) =
      interleaveAfter isConnector fill pending xs ++
        interleaveAfter isConnector fill (pendingAfter isConnector pending xs) ys := by
  induction xs generalizing pending with
  | nil => rfl
  | cons x xs ih =>
    rw [List.cons_append, interleaveAfter, interleaveAfter, pendingAfter]
    split
    · exact ih _
    · rw [ih, List.cons_append, List.cons_append]

theorem pendingAfter_append (pending : Option α) (xs ys : List α) :
    pendingAfter isConnector pending (xs ++ ys) =
      pendingAfter isConnector (pendingAfter isConnector pending xs) ys := by
  induction xs generalizing pending with
  | nil => rfl
  | cons x xs ih =>
    rw [List.cons_append, pendingAfter, pendingAfter]
    split <;> exact ih _

/-- The connector at the front of a list, if there is one. -/
def leading (isConnector : α → Bool) : List α → Option α
  | [] => none
  | x :: _ => if isConnector x then some x else none

/-- A pending connector only stands in for the one in front of the first operand. -/
theorem interleaveAfter_pending (isConnector : α → Bool) (fill : α) (xs : List α) :
    (∀ pending, interleaveAfter isConnector fill pending xs = []) ∨
      ∃ rest, ∀ pending, interleaveAfter isConnector fill pending xs =
        (pending.or (leading isConnector xs)).getD fill :: rest := by
  induction xs with
  | nil => exact .inl fun _ => rfl
  | cons x xs ih =>
    by_cases hx : isConnector x = true
    · rcases ih with hnone | ⟨rest, hrest⟩
      · left
        intro pending
        rw [interleaveAfter, if_pos hx, hnone]
      · right
        refine ⟨rest, fun pending => ?_⟩
        rw [interleaveAfter, if_pos hx, hrest]
        cases pending <;> simp [leading, hx]
    · right
      refine ⟨x :: interleaveAfter isConnector fill none xs, fun pending => ?_⟩
      rw [interleaveAfter, if_neg hx]
      cases pending <;> simp [leading, hx]

theorem exists_operand_of_interleaveAfter {pending : Option α} {xs : List α}
    (h : interleaveAfter isConnector fill pending xs ≠ []) :
    ∃ x ∈ xs, isConnector x = false := by
  induction xs generalizing pending with
  | nil => exact absurd rfl h
  | cons x xs ih =>
    by_cases hx : isConnector x = true
    · rw [interleaveAfter, if_pos hx] at h
      obtain ⟨y, hy, hoperand⟩ := ih h
      exact ⟨y, List.mem_cons_of_mem x hy, hoperand⟩
    · exact ⟨x, List.mem_cons_self, by simpa using hx⟩

theorem mem_interleaveAfter_of_operand {x : α} {xs : List α} (hx : x ∈ xs)
    (hoperand : isConnector x = false) (pending : Option α) :
    x ∈ interleaveAfter isConnector fill pending xs := by
  induction xs generalizing pending with
  | nil => cases hx
  | cons y xs ih =>
    by_cases hy : isConnector y = true
    · rw [interleaveAfter, if_pos hy]
      rcases List.mem_cons.mp hx with rfl | hx
      · rw [hy] at hoperand
        cases hoperand
      · exact ih hx _
    · rw [interleaveAfter, if_neg hy]
      rcases List.mem_cons.mp hx with rfl | hx
      · simp
      · simp [ih hx none]

/-- The repair neither adds nor drops an operand. -/
theorem mem_interleaveAfter_iff (hfill : isConnector fill = true) {x : α}
    (hx : isConnector x = false) (xs : List α) :
    x ∈ interleaveAfter isConnector fill none xs ↔ x ∈ xs := by
  refine ⟨fun h => ?_, fun h => mem_interleaveAfter_of_operand h hx none⟩
  rcases mem_interleaveAfter h with h | h | rfl
  · exact h
  · cases h
  · rw [hfill] at hx
    cases hx

/-! ### Two repairs -/

/-- Repair a list, select some of its elements, and repair the selection. -/
def settled (isConnector : α → Bool) (fill : α) (keep : α → Bool) (xs : List α) : List α :=
  interleave isConnector fill ((interleave isConnector fill xs).filter keep)

def settledAfter (isConnector : α → Bool) (fill : α) (keep : α → Bool) (xs : List α) : List α :=
  interleaveAfter isConnector fill none ((interleaveAfter isConnector fill none xs).filter keep)

variable {keep : α → Bool}

/-- What a selection has to keep: every connector, of which the one that is filled in is one. -/
structure KeepsConnectors (isConnector : α → Bool) (fill : α) (keep : α → Bool) : Prop where
  fill : isConnector fill = true
  connector : ∀ k, isConnector k = true → keep k = true

theorem settled_eq_tail (h : KeepsConnectors isConnector fill keep) (xs : List α) :
    settled isConnector fill keep xs = (settledAfter isConnector fill keep xs).tail := by
  have halternates := alternatesAfter_interleaveAfter h.fill none (by simp) xs
  rw [settled, settledAfter, interleave_eq_tail none xs]
  cases hxs : interleaveAfter isConnector fill none xs with
  | nil => rfl
  | cons k ys =>
    rw [hxs] at halternates
    cases ys with
    | nil => exact halternates.elim
    | cons x ys =>
      have hk := halternates.1
      rw [List.tail_cons, List.filter_cons_of_pos (h.connector k hk), interleaveAfter, if_pos hk,
        ← interleave_eq_tail]

/-- Between the lists `L` and `R` an operand that is not kept costs the connector `k`: it stands in
front of `R`, `L` ends in an operand, and it would join this operand and one of `R`. -/
structure Costs (isConnector : α → Bool) (keep : α → Bool) (L : List α) (k : α) (R : List α) :
    Prop where
  last : ∃ x ∈ L.getLast?, isConnector x = false ∧ keep x = true
  head : leading isConnector R = some k
  next : ∃ x ∈ R, isConnector x = false ∧ keep x = true

def pendingKept (isConnector : α → Bool) (fill : α) (keep : α → Bool) (L : List α) : Option α :=
  pendingAfter isConnector none ((interleaveAfter isConnector fill none L).filter keep)

theorem settledAfter_append (L M : List α) :
    settledAfter isConnector fill keep (L ++ M) = settledAfter isConnector fill keep L ++
      interleaveAfter isConnector fill (pendingKept isConnector fill keep L)
        ((interleaveAfter isConnector fill (pendingAfter isConnector none L) M).filter keep) := by
  simp only [settledAfter, pendingKept, interleaveAfter_append, List.filter_append]

theorem pendingAfter_concat {x : α} (hx : isConnector x = false) (pending : Option α)
    (L : List α) : pendingAfter isConnector pending (L ++ [x]) = none := by
  simp [pendingAfter_append, pendingAfter, hx]

theorem pendingAfter_concat_connector {k : α} (hk : isConnector k = true) (pending : Option α)
    (L : List α) : ∃ k', pendingAfter isConnector pending (L ++ [k]) = some k' := by
  rw [pendingAfter_append]
  cases pendingAfter isConnector pending L <;> simp [pendingAfter, hk]

theorem isConnector_pendingAfter {pending : Option α}
    (hpending : ∀ k ∈ pending, isConnector k = true) (xs : List α) :
    ∀ k ∈ pendingAfter isConnector pending xs, isConnector k = true := by
  induction xs generalizing pending with
  | nil => exact hpending
  | cons x xs ih =>
    rw [pendingAfter]
    split
    · rename_i hx
      refine ih fun k hk => ?_
      cases pending with
      | none => exact Option.mem_some.mp hk ▸ hx
      | some k' => exact hpending k hk
    · exact ih (by simp)

theorem isConnector_leading (isConnector : α → Bool) (xs : List α) :
    ∀ k ∈ leading isConnector xs, isConnector k = true := by
  cases xs with
  | nil => simp [leading]
  | cons x xs => by_cases hx : isConnector x = true <;> simp [leading, hx]

theorem KeepsConnectors.getD (h : KeepsConnectors isConnector fill keep) {k : Option α}
    (hk : ∀ y ∈ k, isConnector y = true) :
    isConnector (k.getD fill) = true ∧ keep (k.getD fill) = true := by
  have hconnector : isConnector (k.getD fill) = true := by
    cases k with
    | none => exact h.fill
    | some y => exact hk y rfl
  exact ⟨hconnector, h.connector _ hconnector⟩

theorem KeepsConnectors.pending (h : KeepsConnectors isConnector fill keep) (L : List α) :
    isConnector ((pendingAfter isConnector none L).getD fill) = true ∧
      keep ((pendingAfter isConnector none L).getD fill) = true :=
  h.getD (isConnector_pendingAfter (by simp) L)

/-- What follows the elements of `L` in both lists is the same, but for the connector that is
pending. -/
theorem settledAfter_discard (h : KeepsConnectors isConnector fill keep) {x : α}
    (hx : isConnector x = false) (hdrop : keep x = false) (L R : List α) :
    ∃ rest, (∀ y, isConnector y = false → (y ∈ rest ↔ y ∈ R ∧ keep y = true)) ∧
      settledAfter isConnector fill keep (L ++ x :: R) = settledAfter isConnector fill keep L ++
        interleaveAfter isConnector fill ((pendingKept isConnector fill keep L).or
          (some ((pendingAfter isConnector none L).getD fill))) rest ∧
      settledAfter isConnector fill keep (L ++ R) = settledAfter isConnector fill keep L ++
        interleaveAfter isConnector fill ((pendingKept isConnector fill keep L).or
          (some (((pendingAfter isConnector none L).or (leading isConnector R)).getD fill)))
            rest := by
  have hL := h.pending L
  have hoperand : ¬ isConnector x = true := by simp [hx]
  have hfront : (interleaveAfter isConnector fill (pendingAfter isConnector none L)
      (x :: R)).filter keep = (pendingAfter isConnector none L).getD fill ::
        (interleaveAfter isConnector fill none R).filter keep := by
    rw [interleaveAfter, if_neg hoperand, List.filter_cons_of_pos hL.2,
      List.filter_cons_of_neg (by simp [hdrop])]
  rw [settledAfter_append, settledAfter_append, hfront, interleaveAfter, if_pos hL.1]
  rcases interleaveAfter_pending isConnector fill R with
    hnone | ⟨tail, htail⟩
  · refine ⟨[], fun y hy => ?_, ?_, ?_⟩
    · have hmem := mem_interleaveAfter_iff h.fill hy R
      rw [hnone] at hmem
      simp [← hmem]
    · rw [hnone]
      rfl
    · rw [hnone]
      rfl
  · have hleading := isConnector_leading isConnector R
    have hR := h.getD hleading
    have hpending : ∀ k ∈ (pendingAfter isConnector none L).or (leading isConnector R),
        isConnector k = true := by
      intro k hk
      cases hp : pendingAfter isConnector none L with
      | none => exact hleading k (by simpa [hp] using hk)
      | some k' =>
        rw [hp] at hk hL
        exact Option.some.inj hk ▸ hL.1
    have hboth := h.getD hpending
    refine ⟨tail.filter keep, fun y hy => ?_, ?_, ?_⟩
    · have hmem := mem_interleaveAfter_iff h.fill hy R
      have hne : y ≠ (leading isConnector R).getD fill := by
        rintro rfl
        rw [hR.1] at hy
        cases hy
      rw [htail, Option.none_or, List.mem_cons, or_iff_right hne] at hmem
      rw [List.mem_filter, hmem]
    · rw [htail, Option.none_or, List.filter_cons_of_pos hR.2, interleaveAfter, if_pos hR.1]
      cases pendingKept isConnector fill keep L <;> rfl
    · rw [htail, List.filter_cons_of_pos hboth.2, interleaveAfter, if_pos hboth.1]

theorem kept_concat (fill : α) {x : α} (hx : isConnector x = false) (hkeep : keep x = true)
    (L : List α) :
    pendingKept isConnector fill keep (L ++ [x]) = none ∧
      settledAfter isConnector fill keep (L ++ [x]) ≠ [] := by
  have hstep : interleaveAfter isConnector fill none (L ++ [x]) =
      interleaveAfter isConnector fill none L ++
        [(pendingAfter isConnector none L).getD fill, x] := by
    simp [interleaveAfter_append, interleaveAfter, hx]
  constructor
  · have hself : [x].filter keep = [x] := by simp [hkeep]
    rw [pendingKept, hstep, List.append_cons, List.filter_append, hself]
    exact pendingAfter_concat hx none _
  · have hmem : x ∈ settledAfter isConnector fill keep (L ++ [x]) :=
      mem_interleaveAfter_of_operand (by simp [hstep, hkeep]) hx none
    exact List.ne_nil_of_mem hmem

theorem notKept_concat (h : KeepsConnectors isConnector fill keep) {x : α}
    (hx : isConnector x = false) (hkeep : keep x = false) (L : List α) :
    ∃ k, pendingKept isConnector fill keep (L ++ [x]) = some k := by
  have hL := h.pending L
  have hstep : (interleaveAfter isConnector fill none (L ++ [x])).filter keep =
      (interleaveAfter isConnector fill none L).filter keep ++
        [(pendingAfter isConnector none L).getD fill] := by
    simp [interleaveAfter_append, interleaveAfter, hx, hkeep, hL.2]
  rw [pendingKept, hstep]
  exact pendingAfter_concat_connector hL.1 none _

/-- An operand that is not kept makes no difference unless it costs a connector. -/
theorem settled_discard (h : KeepsConnectors isConnector fill keep) {x : α}
    (hx : isConnector x = false) (hdrop : keep x = false) {L R : List α}
    (hcosts : ∀ k, ¬ Costs isConnector keep L k R) :
    settled isConnector fill keep (L ++ x :: R) = settled isConnector fill keep (L ++ R) := by
  obtain ⟨rest, hrest, hwith, hwithout⟩ := settledAfter_discard h hx hdrop L R
  rw [settled_eq_tail h, settled_eq_tail h, hwith, hwithout]
  rcases List.eq_nil_or_concat L with rfl | ⟨L, p, rfl⟩
  · -- At the front of the list no connector is left.
    have hnil : settledAfter isConnector fill keep [] = [] := rfl
    rw [hnil, List.nil_append, List.nil_append, ← interleave_eq_tail, ← interleave_eq_tail]
  by_cases hp : isConnector p = true
  · obtain ⟨k, hk⟩ := pendingAfter_concat_connector hp none L
    simp [hk]
  have hp : isConnector p = false := by simpa using hp
  by_cases hkeep : keep p = true
  · cases hlead : leading isConnector R with
    | none => simp
    | some k =>
      rcases interleaveAfter_pending isConnector fill rest with
        hnone | ⟨tail, htail⟩
      · simp [hnone]
      · -- An operand follows that the connector would join.
        have hne : interleaveAfter isConnector fill none rest ≠ [] := by
          rw [htail]
          exact List.cons_ne_nil _ _
        obtain ⟨y, hy, hoperand⟩ := exists_operand_of_interleaveAfter hne
        have hnext := (hrest y hoperand).mp hy
        exact absurd ⟨⟨p, by simp, hp, hkeep⟩, hlead, ⟨y, hnext.1, hoperand, hnext.2⟩⟩ (hcosts k)
  · obtain ⟨k, hk⟩ := notKept_concat h hp (by simpa using hkeep) L
    simp [hk]

/-- An operand that is not kept can cost a connector: the one that is filled in stands in its
place. -/
theorem settled_discard_of_costs (h : KeepsConnectors isConnector fill keep) {x k : α}
    (hx : isConnector x = false) (hdrop : keep x = false) {L R : List α}
    (hcosts : Costs isConnector keep L k R) :
    ∃ pre post, settled isConnector fill keep (L ++ x :: R) = pre ++ fill :: post ∧
      settled isConnector fill keep (L ++ R) = pre ++ k :: post := by
  obtain ⟨rest, hrest, hwith, hwithout⟩ := settledAfter_discard h hx hdrop L R
  obtain ⟨⟨p, hlast, hp, hkeep⟩, hlead, y, hy, hoperand, hykeep⟩ := hcosts
  obtain ⟨L, rfl⟩ := List.getLast?_eq_some_iff.mp hlast
  obtain ⟨hpending, hne⟩ := kept_concat fill hp hkeep L
  rcases interleaveAfter_pending isConnector fill rest with
    hnone | ⟨tail, htail⟩
  · have hmem : y ∈ interleaveAfter isConnector fill none rest :=
      mem_interleaveAfter_of_operand ((hrest y hoperand).mpr ⟨hy, hykeep⟩) hoperand none
    rw [hnone] at hmem
    cases hmem
  · rw [hpending, pendingAfter_concat hp, htail] at hwith hwithout
    refine ⟨(settledAfter isConnector fill keep (L ++ [p])).tail, tail, ?_, ?_⟩
    · rw [settled_eq_tail h, hwith, List.tail_append_of_ne_nil hne]
      rfl
    · rw [settled_eq_tail h, hwithout, List.tail_append_of_ne_nil hne, hlead]
      rfl

theorem settled_kept (h : KeepsConnectors isConnector fill keep) (L R : List α) :
    ∃ pre post, ∀ x, isConnector x = false → keep x = true →
      settled isConnector fill keep (L ++ x :: R) = pre ++ x :: post := by
  have hL := h.pending L
  refine ⟨(settledAfter isConnector fill keep L ++
    [((pendingKept isConnector fill keep L).or
      (some ((pendingAfter isConnector none L).getD fill))).getD fill]).tail,
    interleaveAfter isConnector fill none ((interleaveAfter isConnector fill none R).filter keep),
    fun x hx hkeep => ?_⟩
  have hoperand : ¬ isConnector x = true := by simp [hx]
  rw [settled_eq_tail h, settledAfter_append, interleaveAfter, if_neg hoperand,
    List.filter_cons_of_pos hL.2, List.filter_cons_of_pos hkeep, interleaveAfter, if_pos hL.1,
    interleaveAfter, if_neg hoperand, List.append_cons,
    List.tail_append_of_ne_nil (by simp)]

end Paging
