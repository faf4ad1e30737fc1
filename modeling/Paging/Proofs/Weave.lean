import Paging.Predicate

/-! Predicates that are woven of parts: between the parts stand only parentheses and
connectors, which hold no placeholder. If each part has a placeholder for each of its
parameters, the placeholder at a place lies in the segment of the part that the
parameter at this place comes from. -/
namespace Paging
namespace Predicate

instance : Append Predicate := ⟨fun p q => ⟨p.tokens ++ q.tokens, p.params ++ q.params⟩⟩

@[simp] theorem tokens_append (p q : Predicate) : (p ++ q).tokens = p.tokens ++ q.tokens := rfl
@[simp] theorem params_append (p q : Predicate) : (p ++ q).params = p.params ++ q.params := rfl

def glue : List Text := ["(", ")", "AND", "OR"]

/-- A predicate that is woven of some parts in their order, with glue around them. -/
inductive Weave : List Predicate → Predicate → Prop
  | nil : Weave [] {}
  | glue {ps : List Predicate} {p : Predicate} {t : Text} : t ∈ glue → Weave ps p →
      Weave ps (⟨[t], []⟩ ++ p)
  | part {ps : List Predicate} {p : Predicate} (q : Predicate) : Weave ps p →
      Weave (q :: ps) (q ++ p)

theorem append_assoc (p q r : Predicate) : p ++ q ++ r = p ++ (q ++ r) := by
  show (⟨_, _⟩ : Predicate) = ⟨_, _⟩
  simp only [tokens_append, params_append, List.append_assoc]

theorem Weave.append {ps qs : List Predicate} {p q : Predicate} (hp : Weave ps p)
    (hq : Weave qs q) : Weave (ps ++ qs) (p ++ q) := by
  induction hp with
  | nil => exact hq
  | glue ht _ ih => rw [append_assoc]; exact .glue ht ih
  | part r _ ih => rw [append_assoc]; exact .part r ih

theorem Weave.params {ps : List Predicate} {p : Predicate} (h : Weave ps p) :
    p.params = ps.flatMap Predicate.params := by
  induction h with
  | nil => rfl
  | glue _ _ ih => exact ih
  | part q _ ih => rw [params_append, ih, List.flatMap_cons]

/-- As many placeholders as parameters. -/
def Balanced (p : Predicate) : Prop := p.tokens.count ("?" : Text) = p.params.length

theorem Weave.balanced {ps : List Predicate} {p : Predicate} (h : Weave ps p)
    (hps : ∀ q ∈ ps, q.Balanced) : p.Balanced := by
  induction h with
  | nil => rfl
  | @glue _ p t ht _ ih =>
    have hne : t ≠ "?" := by rintro rfl; revert ht; decide
    have hp := ih hps
    rw [Balanced] at hp ⊢
    simp [List.count_cons_of_ne hne, hp]
  | part q _ ih =>
    have hq := hps q List.mem_cons_self
    have hp := ih fun r hr => hps r (List.mem_cons_of_mem q hr)
    rw [Balanced] at hp hq ⊢
    simp [hp, hq]

/-! ### Positions -/

def placeholders : List Text → List Nat
  | [] => []
  | t :: ts => if t = "?" then 0 :: (placeholders ts).map (· + 1) else (placeholders ts).map (· + 1)

def owners : List Predicate → List Nat
  | [] => []
  | q :: qs => List.replicate q.params.length 0 ++ (owners qs).map (· + 1)

theorem length_placeholders (ts : List Text) :
    (placeholders ts).length = ts.count ("?" : Text) := by
  induction ts with
  | nil => rfl
  | cons t ts ih => by_cases h : t = "?" <;> simp [placeholders, h, ih]

theorem lt_length_of_mem_placeholders {ts : List Text} {j : Nat} (h : j ∈ placeholders ts) :
    j < ts.length := by
  induction ts generalizing j with
  | nil => cases h
  | cons t ts ih =>
    have hmap : ∀ i ∈ (placeholders ts).map (· + 1), i < (t :: ts).length := by
      intro i hi
      obtain ⟨i', hi', rfl⟩ := List.mem_map.mp hi
      have hlt := ih hi'
      simp only [List.length_cons]
      omega
    rw [placeholders] at h
    split at h
    · rcases List.mem_cons.mp h with rfl | h
      · simp
      · exact hmap j h
    · exact hmap j h

theorem placeholders_append (ts us : List Text) :
    placeholders (ts ++ us) = placeholders ts ++ (placeholders us).map (· + ts.length) := by
  induction ts with
  | nil => simp [placeholders]
  | cons t ts ih =>
    have hshift : ((placeholders us).map (· + ts.length)).map (· + 1) =
        (placeholders us).map (· + (t :: ts).length) := by
      rw [List.map_map]
      rfl
    by_cases h : t = "?"
    · rw [List.cons_append, placeholders, placeholders, if_pos h, if_pos h, ih, List.map_append,
        hshift, List.cons_append]
    · rw [List.cons_append, placeholders, placeholders, if_neg h, if_neg h, ih, List.map_append,
        hshift]

/-- The predicate `p` of some parts, the part at `i` laid out from `start i` on. -/
structure Segmented (parts : List Predicate) (start : Nat → Nat) (p : Predicate) : Prop where
  /-- The segments hold the tokens of the parts, one behind the other. -/
  segment : ∀ i q, parts[i]? = some q →
    (p.tokens.drop (start i)).take q.tokens.length = q.tokens ∧
      start i + q.tokens.length ≤ start (i + 1)
  /-- The placeholder of a parameter lies in the segment of the part that it comes from. -/
  placeholder : ∀ k < p.params.length, ∃ i q j, (owners parts)[k]? = some i ∧
    parts[i]? = some q ∧ (placeholders p.tokens)[k]? = some j ∧
      start i ≤ j ∧ j < start i + q.tokens.length

theorem Segmented.glue {parts : List Predicate} {start : Nat → Nat} {p : Predicate} {t : Text}
    (ht : t ∈ Predicate.glue) (h : Segmented parts start p) :
    Segmented parts (fun i => start i + 1) (⟨[t], []⟩ ++ p) where
  segment i q hq := by
    obtain ⟨htake, hle⟩ := h.segment i q hq
    exact ⟨by simpa using htake, by omega⟩
  placeholder k hk := by
    have hne : t ≠ "?" := by rintro rfl; revert ht; decide
    obtain ⟨i, q, j, hi, hq, hj, hlo, hhi⟩ := h.placeholder k (by simpa using hk)
    refine ⟨i, q, j + 1, hi, hq, ?_, by omega, by omega⟩
    simp [placeholders, hne, hj]

def startsBehind (n : Nat) (start : Nat → Nat) : Nat → Nat
  | 0 => 0
  | i + 1 => start i + n

theorem Segmented.part {parts : List Predicate} {start : Nat → Nat} {p : Predicate}
    (q : Predicate) (hq : q.Balanced) (h : Segmented parts start p) :
    Segmented (q :: parts) (startsBehind q.tokens.length start) (q ++ p) where
  segment i r hr := by
    cases i with
    | zero =>
      obtain rfl : q = r := by simpa using hr
      exact ⟨by simp [startsBehind], by simp [startsBehind]⟩
    | succ i =>
      obtain ⟨htake, hle⟩ := h.segment i r (by simpa using hr)
      refine ⟨?_, by simp only [startsBehind]; omega⟩
      rw [tokens_append, startsBehind, Nat.add_comm (start i), List.drop_length_add_append]
      exact htake
  placeholder k hk := by
    have hlength : (placeholders q.tokens).length = q.params.length :=
      (length_placeholders _).trans hq
    by_cases hown : k < q.params.length
    · -- The parameter is one of the new part's own.
      have hk' : k < (placeholders q.tokens).length := by omega
      have hj := lt_length_of_mem_placeholders (List.getElem_mem hk')
      refine ⟨0, q, (placeholders q.tokens)[k], ?_, rfl, ?_, Nat.zero_le _, ?_⟩
      · simp [owners, List.getElem?_append, hown]
      · rw [tokens_append, placeholders_append, List.getElem?_append_left hk']
        exact List.getElem?_eq_getElem hk'
      · rw [startsBehind, Nat.zero_add]
        exact hj
    · have hk' : k - q.params.length < p.params.length := by
        rw [params_append, List.length_append] at hk
        omega
      obtain ⟨i, r, j, hi, hr, hj, hlo, hhi⟩ := h.placeholder _ hk'
      refine ⟨i + 1, r, j + q.tokens.length, ?_, by simpa using hr, ?_,
        by simp only [startsBehind]; omega, by simp only [startsBehind]; omega⟩
      · simp [owners, List.getElem?_append, hown, hi]
      · rw [tokens_append, placeholders_append, List.getElem?_append_right (by omega), hlength]
        simp [hj]

theorem Weave.segmented {ps : List Predicate} {p : Predicate} (h : Weave ps p)
    (hps : ∀ q ∈ ps, q.Balanced) : ∃ start, Segmented ps start p := by
  induction h with
  | nil =>
    refine ⟨fun _ => 0, ⟨?_, ?_⟩⟩
    · intro i q hq
      simp at hq
    · intro k hk
      simp at hk
  | glue ht _ ih =>
    obtain ⟨start, hs⟩ := ih hps
    exact ⟨_, hs.glue ht⟩
  | part q _ ih =>
    obtain ⟨start, hs⟩ := ih fun r hr => hps r (List.mem_cons_of_mem q hr)
    exact ⟨_, hs.part q (hps q List.mem_cons_self)⟩

end Predicate
end Paging
