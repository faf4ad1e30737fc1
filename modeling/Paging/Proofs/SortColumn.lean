import Paging.Proofs.Identifier
import Paging.Query

/-! Columns to sort by are written into a statement as they are, so what a client writes in them
must not mean anything there. It cannot hold a colon or a backslash, and no step of its way to the
query puts one in. -/
namespace Paging

/-- Characters that mean nothing in a clause: of ASCII, but no colon and no backslash. -/
def IsInert (c : Letter) : Prop := c.toNat < 128 ∧ c ≠ ':' ∧ c ≠ '\\'

instance (c : Letter) : Decidable (IsInert c) := inferInstanceAs (Decidable (_ ∧ _ ∧ _))

theorem isInert_of_all {cs : List Letter} (h : cs.all (IsInert ·) = true) : ∀ c ∈ cs, IsInert c :=
  fun c hc => of_decide_eq_true (List.all_eq_true.mp h c hc)

theorem Text.of_ascii {P : Letter → Prop} (h : ∀ n < 128, P (Letter.ofNat n)) {c : Letter}
    (hc : c.toNat < 128) : P c := by
  have hp := h c.toNat hc
  rwa [Letter.ofNat_toNat] at hp

theorem isInert_toUpper_toLower {c : Letter} (h : IsInert c) :
    IsInert c.toUpper ∧ IsInert c.toLower :=
  Text.of_ascii (P := fun c => IsInert c → IsInert c.toUpper ∧ IsInert c.toLower) (by decide) h.1 h

theorem Text.isInert_title {s : Text} (h : ∀ c ∈ s.toList, IsInert c) :
    ∀ c ∈ (title s).toList, IsInert c := by
  have hfrom : ∀ (r before : List Letter) (inWord : Bool), (∀ c ∈ r, IsInert c) →
      ∀ c ∈ Case.titleFrom before inWord r, IsInert c := by
    intro r
    induction r with
    | nil => intro before inWord _ c hc; cases hc
    | cons d r ih =>
      intro before inWord hr c hc
      obtain ⟨hd, hr⟩ := List.forall_mem_cons.mp hr
      obtain ⟨hupper, hlower⟩ := isInert_toUpper_toLower hd
      have hsigma : d ≠ Case.capitalSigma := by
        rintro rfl
        exact absurd hd (by decide)
      rw [Case.titleFrom, Case.titleChar, if_pos hd.1, Case.lowerIn, if_neg hsigma,
        Case.lowerChar, if_pos hd.1] at hc
      rcases List.mem_append.mp hc with hc | hc
      · split at hc
        · exact List.mem_singleton.mp hc ▸ hlower
        · exact List.mem_singleton.mp hc ▸ hupper
      · exact ih _ _ hr c hc
  rw [title, Text.toList_ofList]
  exact hfrom s.toList [] false h

theorem Column.mem_joinWords {c : Letter} (before : Option Letter) (s : List Letter)
    (h : c ∈ joinWords before s) : c ∈ s := by
  induction s generalizing before with
  | nil => cases h
  | cons d s ih =>
    rw [joinWords] at h
    split at h
    · exact List.mem_cons_of_mem d (ih _ h)
    · rcases List.mem_cons.mp h with rfl | h
      · exact List.mem_cons_self
      · exact List.mem_cons_of_mem d (ih _ h)

theorem Text.mem_split {sep c : Letter} {s : Text} {word : Text} (hword : word ∈ split sep s)
    (hc : c ∈ word.toList) : c ∈ s.toList := by
  have hchars : ∀ (cs : List Letter) w, w ∈ splitChars sep cs → ∀ c ∈ w, c ∈ cs := by
    intro cs
    induction cs with
    | nil => simp [splitChars]
    | cons d cs ih =>
      intro w hw c hc
      rw [splitChars] at hw
      split at hw
      · rcases List.mem_cons.mp hw with rfl | hw
        · cases hc
        · exact List.mem_cons_of_mem d (ih w hw c hc)
      · split at hw
        · obtain rfl := List.mem_singleton.mp hw
          exact List.mem_cons.mpr (.inl (List.mem_singleton.mp hc))
        · rename_i v vs hvs
          rcases List.mem_cons.mp hw with rfl | hw
          · rcases List.mem_cons.mp hc with rfl | hc
            · exact List.mem_cons_self
            · exact List.mem_cons_of_mem d (ih v (hvs ▸ List.mem_cons_self) c hc)
          · exact List.mem_cons_of_mem d (ih w (hvs ▸ List.mem_cons_of_mem v hw) c hc)
  obtain ⟨w, hw, rfl⟩ := List.mem_map.mp hword
  exact hchars s.toList w hw c (by simpa using hc)

theorem Text.forall_mem_intercalate {P : Letter → Prop} {sep : Text} {words : List Text}
    (hsep : ∀ c ∈ sep.toList, P c) (hwords : ∀ w ∈ words, ∀ c ∈ w.toList, P c) :
    ∀ c ∈ (sep.intercalate words).toList, P c := by
  induction words with
  | nil => simp
  | cons w words ih =>
    obtain ⟨hw, hwords⟩ := List.forall_mem_cons.mp hwords
    cases words with
    | nil => simpa using hw
    | cons v words =>
      rw [Text.intercalate_cons_cons]
      simp only [Text.toList_append, List.forall_mem_append]
      exact ⟨⟨hw, hsep⟩, ih hwords⟩

theorem Column.isInert_resolve {s : Text} (h : ∀ c ∈ s.toList, IsInert c) :
    ∀ c ∈ (resolve s).toList, IsInert c := by
  rw [resolve, resolveBy]
  split
  · rename_i relation field more hsplit
    have hword (w : Text) (hw : w ∈ relation :: field :: more) : ∀ c ∈ w.toList, IsInert c :=
      fun c hc => h c (Text.mem_split (hsplit ▸ hw) hc)
    refine Text.forall_mem_intercalate (isInert_of_all (by decide)) (List.forall_mem_cons.mpr
      ⟨fun c hc => ?_, fun w hw => hword w (List.mem_cons_of_mem relation hw)⟩)
    rw [pascal, Text.toList_ofList] at hc
    exact Text.isInert_title (hword relation List.mem_cons_self) c (mem_joinWords none _ hc)
  · exact h

theorem Dialect.isInert_quote {d : Dialect} (hd : d ∈ known) {s : Text}
    (h : ∀ c ∈ s.toList, IsInert c) : ∀ c ∈ (d.quote s).toList, IsInert c := by
  have hmark : ∀ q ∈ d.quoting, IsInert q.mark := by
    rcases mem_known_iff.mp hd with rfl | rfl | rfl | rfl | rfl <;> decide
  rw [quote]
  split
  · rename_i q hq
    intro c hc
    simp only [Quoting.quote, Text.toList_ofList, List.mem_append, List.mem_cons,
      List.mem_flatMap, List.not_mem_nil, or_false] at hc
    rcases hc with (rfl | ⟨c', hc', hc⟩) | rfl
    · exact hmark q hq
    · have hsame : c = c' := by
        rw [Quoting.character] at hc
        split at hc <;> simpa using hc
      exact hsame ▸ h c' hc'
    · exact hmark q hq
  · intro c hc
    rw [Text.toList_ofList] at hc
    exact h c (List.mem_filter.mp hc).1

theorem IsWordChar.toNat_lt {c : Letter} (h : IsWordChar c) : c.toNat < 128 := by
  cases c with
  | half n => exact h.elim
  | char c =>
    have hle {d : Char} (hd : d.toNat < 128) (hc : c ≤ d) : c.toNat < 128 :=
      Nat.lt_of_le_of_lt (UInt32.le_iff_toNat_le.mp (Char.le_def.mp hc)) hd
    rcases h with h | h | h | rfl
    · exact hle (by decide) h.2
    · exact hle (by decide) h.2
    · exact hle (by decide) h.2
    · decide

theorem SortKey.isInert_of_isAllowed {c : Letter} (h : isAllowed c = true) : IsInert c := by
  refine ⟨?_, ?_, ?_⟩
  · rcases (Bool.or_eq_true _ _).mp h with h | h
    · exact (Dialect.isWordChar_of_isBare h).toNat_lt
    · obtain rfl : c = '.' := by simpa using h
      decide
  · rintro rfl
    exact absurd h (by decide)
  · rintro rfl
    exact absurd h (by decide)

theorem SortKey.isAllowed_of_ofItem? {fallback : Direction} {entry : Text} {s : SortKey}
    (h : ofItem? fallback entry = some s) :
    s.column ≠ "" ∧ ∀ c ∈ s.column.toList, isAllowed c = true := by
  have hcolumn : s.column ≠ "" ∧
      ∃ cs : List Letter, s.column = Text.ofList (cs.filter isAllowed) := by
    simp only [ofItem?] at h
    -- With a minus in front or without.
    split at h <;> dsimp only at h
    all_goals
      split at h
      · cases h
      · rename_i hne
        cases h
        exact ⟨by simpa using hne, _, rfl⟩
  obtain ⟨hne, cs, hcs⟩ := hcolumn
  refine ⟨hne, fun c hc => ?_⟩
  rw [hcs, Text.toList_ofList] at hc
  exact (List.mem_filter.mp hc).2

theorem SortKey.isInert_of_mem_ofValue {v order : Value} {s : SortKey} (h : s ∈ ofValue v order) :
    ∀ c ∈ s.column.toList, IsInert c := by
  obtain ⟨entry, -, hentry⟩ := List.mem_filterMap.mp h
  exact fun c hc => isInert_of_isAllowed ((isAllowed_of_ofItem? hentry).2 c hc)

theorem Query.isInert_of_mem_sorts {cfg : Config} {r : Request} {q : Query}
    (hq : ofDescriptor cfg (.ofRequest cfg r) = .ok q) {s : SortKey} (hs : s ∈ q.sorts) :
    ∀ c ∈ s.column.toList, IsInert c := by
  have hsorts : q.sorts = sortKeys cfg (Descriptor.ofRequest cfg r).sorts := by
    simp only [ofDescriptor, bind, Except.bind, pure, Except.pure] at hq
    split at hq
    · cases hq
    · cases hq
      rfl
  rw [hsorts] at hs
  obtain ⟨hs, -⟩ := List.mem_filter.mp hs
  obtain ⟨s', hs', rfl⟩ := List.mem_map.mp hs
  exact Dialect.isInert_quote (Dialect.sqlDialect_mem_known cfg)
    (Column.isInert_resolve (SortKey.isInert_of_mem_ofValue hs'))

end Paging
