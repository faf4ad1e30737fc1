import Paging.Proofs.SortColumn
import Paging.Proofs.Spelling

/-! Sort lists as text. What is read of a sort list, whatever a client sends for it, is written with
commas between the columns and a minus before each that descends, and this text is read as the same
list: what is stripped of a column is neither a sign nor a comma of the text. -/
namespace Paging
namespace SortKey

def IsWord (s : Text) : Prop := s ≠ "" ∧ ∀ c ∈ s.toList, IsWordChar c ∨ c = '.'

instance (s : Text) : Decidable (IsWord s) := inferInstanceAs (Decidable (_ ∧ _))

/-- A column with a minus in front if it descends. -/
def text (k : SortKey) : Text :=
  match k.direction with
  | .ascending => k.column
  | .descending => "-" ++ k.column

/-- A sort list with commas between its columns. -/
def print (keys : List SortKey) : Text := ("," : Text).intercalate (keys.map text)

def descend (k : SortKey) : SortKey := { k with direction := .descending }

def turned (fallback : Direction) (k : SortKey) : SortKey :=
  if k.direction = .descending then k else { k with direction := fallback }

theorem turned_ascending (k : SortKey) : turned .ascending k = k := by
  obtain ⟨column, direction⟩ := k
  cases direction <;> rfl

theorem turned_descending (k : SortKey) : turned .descending k = descend k := by
  obtain ⟨column, direction⟩ := k
  cases direction <;> rfl

/-- Does an order say `DESC`, in any case and with blanks around it? -/
def SaysDescending (order : Value) : Prop :=
  ∃ s, order = .text s ∧ Text.upper (Text.strip s) = "DESC"

theorem ofOrder_of_saysDescending {order : Value} (h : SaysDescending order) :
    Direction.ofOrder order = .descending := by
  obtain ⟨s, rfl, hs⟩ := h
  rw [Direction.ofOrder, if_pos hs]

theorem ofOrder_of_not_saysDescending {order : Value} (h : ¬ SaysDescending order) :
    Direction.ofOrder order = .ascending := by
  cases order with
  | text s =>
    have hs : ¬ Text.upper (Text.strip s) = "DESC" := fun hs => h ⟨s, rfl, hs⟩
    rw [Direction.ofOrder, if_neg hs]
  | _ => rfl

/-! ### Characters of a column -/

theorem isAllowed_iff {c : Letter} : isAllowed c = true ↔ IsWordChar c ∨ c = '.' := by
  by_cases hc : c.toNat < 128
  · exact Text.of_ascii (P := fun c => isAllowed c = true ↔ IsWordChar c ∨ c = '.') (by decide) hc
  · constructor
    · intro h
      exact absurd (isInert_of_isAllowed h).1 hc
    · rintro (h | rfl)
      · exact absurd h.toNat_lt hc
      · exact absurd (by decide) hc

theorem ne_of_isAllowed {c : Letter} (h : isAllowed c = true) :
    Text.isBlank c = false ∧ c ≠ '-' ∧ c ≠ ',' :=
  Text.of_ascii
    (P := fun c => isAllowed c = true → Text.isBlank c = false ∧ c ≠ '-' ∧ c ≠ ',') (by decide)
    (isInert_of_isAllowed h).1 h

theorem IsWord.isAllowed {s : Text} (h : IsWord s) : ∀ c ∈ s.toList, isAllowed c = true :=
  fun c hc => isAllowed_iff.mpr (h.2 c hc)

theorem isWord_of_ofItem? {fallback : Direction} {entry : Text} {k : SortKey}
    (h : ofItem? fallback entry = some k) : IsWord k.column := by
  obtain ⟨hne, hallowed⟩ := isAllowed_of_ofItem? h
  exact ⟨hne, fun c hc => isAllowed_iff.mp (hallowed c hc)⟩

/-! ### One entry -/

theorem ofItem?_text (fallback : Direction) {k : SortKey} (hk : IsWord k.column) :
    ofItem? fallback k.text = some (k.turned fallback) := by
  obtain ⟨column, direction⟩ := k
  have hallowed : ∀ c ∈ column.toList, SortKey.isAllowed c = true := hk.isAllowed
  have hkept : Text.ofList (column.toList.filter SortKey.isAllowed) = column := by
    rw [List.filter_eq_self.mpr hallowed, Text.ofList_toList]
  have hne : column.isEmpty = false := by simpa using hk.1
  have hblank : ∀ c ∈ column.toList, Text.isBlank c = false :=
    fun c hc => (ne_of_isAllowed (hallowed c hc)).1
  cases direction with
  | ascending =>
    have hsign : ∀ r, column.toList ≠ .char '-' :: r := by
      intro r hr
      exact (ne_of_isAllowed (hallowed '-' (by simp [hr]))).2.1 rfl
    simp [ofItem?, text, turned, Decimal.trimBy_eq_self hblank, hkept, hne]
  | descending =>
    have hminus : ∀ c ∈ Letter.char '-' :: column.toList, Text.isBlank c = false :=
      List.forall_mem_cons.mpr ⟨by decide, hblank⟩
    simp [ofItem?, text, turned, Decimal.trimBy_eq_self hminus, hkept, hne]

/-- With the other fallback every entry descends, and its column is the same. -/
theorem ofItem?_descending (entry : Text) :
    ofItem? .descending entry = (ofItem? .ascending entry).map descend := by
  simp only [ofItem?]
  split <;> dsimp only <;> split <;> rfl

/-! ### Lists -/

theorem comma_notMem_text {k : SortKey} (hk : IsWord k.column) : .char ',' ∉ k.text.toList := by
  have hcolumn : .char ',' ∉ k.column.toList :=
    fun hc => (ne_of_isAllowed (hk.isAllowed ',' hc)).2.2 rfl
  cases hd : k.direction with
  | ascending => simpa [text, hd] using hcolumn
  | descending => simpa [text, hd] using hcolumn

theorem filterMap_ofItem?_text (fallback : Direction) {keys : List SortKey}
    (hkeys : ∀ k ∈ keys, IsWord k.column) :
    (keys.map text).filterMap (ofItem? fallback) = keys.map (turned fallback) := by
  have hread : ∀ k ∈ keys, (ofItem? fallback ∘ text) k = (some ∘ turned fallback) k := by
    intro k hk
    rw [Function.comp_apply, Function.comp_apply]
    exact ofItem?_text fallback (hkeys k hk)
  rw [List.filterMap_map, List.filterMap_congr hread, List.filterMap_eq_map]

theorem ofValue_print {keys : List SortKey} (hkeys : ∀ k ∈ keys, IsWord k.column) (order : Value) :
    ofValue (.text (print keys)) order = keys.map (turned (Direction.ofOrder order)) := by
  have hcommas : ∀ s ∈ keys.map text, .char ',' ∉ s.toList := by
    intro s hs
    obtain ⟨k, hk, rfl⟩ := List.mem_map.mp hs
    exact comma_notMem_text (hkeys k hk)
  rw [print, ofValue_join hcommas, ofValue_texts, filterMap_ofItem?_text _ hkeys]

theorem isWord_of_mem_ofValue {v order : Value} {k : SortKey} (h : k ∈ ofValue v order) :
    IsWord k.column := by
  obtain ⟨entry, -, hentry⟩ := List.mem_filterMap.mp h
  exact isWord_of_ofItem? hentry

/-- An order that says `DESC` turns every column, and changes nothing else. -/
theorem ofValue_of_saysDescending {order : Value} (h : SaysDescending order) (v : Value) :
    ofValue v order = (ofValue v .null).map descend := by
  have hnull : Direction.ofOrder .null = .ascending := rfl
  unfold ofValue
  rw [ofOrder_of_saysDescending h, hnull, List.map_filterMap]
  exact List.filterMap_congr fun entry _ => ofItem?_descending entry

/-- Sort lists have a canonical text. Whatever a client sends for a sort list and for an order, the
columns that are read are words, each with one of the two directions, and the text of the list is
read as the list. A list of words is read back from its text with any order that does not say
`DESC`; one that does turns every column, of this text as of anything that a client sends. -/
theorem ofValue_print_ofValue (v order : Value) :
    (∀ k ∈ ofValue v order,
      IsWord k.column ∧ (k.direction.text = "ASC" ∨ k.direction.text = "DESC")) ∧
    ofValue (.text (print (ofValue v order))) .null = ofValue v order ∧
    (∀ keys : List SortKey, (∀ k ∈ keys, IsWord k.column) →
      (¬ SaysDescending order → ofValue (.text (print keys)) order = keys) ∧
      (SaysDescending order → ofValue (.text (print keys)) order = keys.map descend)) ∧
    (SaysDescending order → ofValue v order = (ofValue v .null).map descend) := by
  have hback {keys : List SortKey} (hkeys : ∀ k ∈ keys, IsWord k.column) {order : Value}
      (horder : ¬ SaysDescending order) : ofValue (.text (print keys)) order = keys := by
    rw [ofValue_print hkeys, ofOrder_of_not_saysDescending horder]
    exact (List.map_congr_left fun k _ => k.turned_ascending).trans (List.map_id _)
  have hturned {keys : List SortKey} (hkeys : ∀ k ∈ keys, IsWord k.column)
      (horder : SaysDescending order) :
      ofValue (.text (print keys)) order = keys.map descend := by
    rw [ofValue_print hkeys, ofOrder_of_saysDescending horder]
    exact List.map_congr_left fun k _ => k.turned_descending
  have hnull : ¬ SaysDescending .null := fun ⟨_, htext, _⟩ => by cases htext
  refine ⟨fun k hk => ⟨isWord_of_mem_ofValue hk, ?_⟩, hback (fun k => isWord_of_mem_ofValue) hnull,
    fun keys hkeys => ⟨hback hkeys, hturned hkeys⟩, fun h => ofValue_of_saysDescending h v⟩
  cases k.direction with
  | ascending => exact .inl rfl
  | descending => exact .inr rfl

/-- A minus behind a blank, one behind a letter that is stripped, a comma inside an entry and an
entry of which nothing is left; and an order in which the letter `ſ` stands for an `S`. -/
theorem ofValue_print_ofValue_hidden :
    let v : Value := .list [.text " - b", .text "é-a,c", .int 1, .text "-,"]
    let keys : List SortKey := [⟨"b", .descending⟩, ⟨"ac", .ascending⟩]
    ofValue v .null = keys ∧ print keys = "-b,ac" ∧ ofValue (.text (print keys)) .null = keys ∧
      SaysDescending (.text " deſc\n") ∧ ofValue v (.text " deſc\n") = keys.map descend := by
  intro v keys
  have hkeys : ofValue v .null = keys := by decide
  have horder : SaysDescending (.text " deſc\n") := ⟨_, rfl, by decide⟩
  obtain ⟨-, hback, -⟩ := ofValue_print_ofValue v .null
  obtain ⟨-, -, -, hturned⟩ := ofValue_print_ofValue v (.text " deſc\n")
  rw [hkeys] at hback hturned
  exact ⟨hkeys, rfl, hback, horder, hturned horder⟩

end SortKey
end Paging
