import Paging.Proofs.Canonical
import Paging.Request

/-! Values that JSON knows. Reading JSON gives nothing else, so the filter of a request that
holds JSON values compares columns with such values only. -/
namespace Paging

namespace Value

mutual

/-- No byte strings and no tuples, at any depth. -/
def IsJson : Value → Prop
  | .bytes _ | .tuple _ => False
  | .list xs => IsJsonList xs
  | .object fields => IsJsonFields fields
  | .null | .bool _ | .int _ | .float _ | .text _ => True

def IsJsonList : List Value → Prop
  | [] => True
  | x :: xs => x.IsJson ∧ IsJsonList xs

def IsJsonFields : List (Text × Value) → Prop
  | [] => True
  | (_, x) :: r => x.IsJson ∧ IsJsonFields r

end

theorem isJsonList_iff {xs : List Value} : IsJsonList xs ↔ ∀ x ∈ xs, x.IsJson := by
  induction xs with
  | nil => simp [IsJsonList]
  | cons x xs ih => simp [IsJsonList, ih]

theorem isJsonFields_iff {fields : Fields} : IsJsonFields fields ↔ ∀ f ∈ fields, f.2.IsJson := by
  induction fields with
  | nil => simp [IsJsonFields]
  | cons f r ih => simp [IsJsonFields, ih]

end Value

/-! ### What is read of a text -/

def Gives {ε α : Type} (m : Except ε α) (P : α → Prop) : Prop := ∀ a, m = .ok a → P a

namespace Gives

variable {ε α β : Type} {m : Except ε α} {P : α → Prop} {Q : β → Prop}

theorem ok {a : α} (h : P a) : Gives (.ok a : Except ε α) P := by
  rintro _ ⟨⟩
  exact h

theorem error (e : ε) : Gives (.error e : Except ε α) P := by
  rintro _ ⟨⟩

theorem bind {k : α → Except ε β} (h : Gives m P) (hk : ∀ a, P a → Gives (k a) Q) :
    Gives (m >>= k) Q := by
  intro b hb
  cases hm : m with
  | error e =>
    rw [hm] at hb
    cases hb
  | ok a =>
    rw [hm] at hb
    exact hk a (h a hm) b hb

theorem trivially (m : Except ε α) : Gives m fun _ => True := fun _ _ => trivial

end Gives

namespace Json

open Value

theorem isJson_of_mem_words {w : List Letter × Value} (hw : w ∈ words) : w.2.IsJson := by
  simp only [words, List.mem_cons, List.not_mem_nil, or_false] at hw
  rcases hw with rfl | rfl | rfl | rfl | rfl | rfl <;> trivial

theorem isJson_readNumber (c : Cursor) : Gives (readNumber c) fun x => x.1.IsJson := by
  unfold readNumber
  dsimp only
  split
  · exact .error _
  · split
    · split
      · exact .error _
      · exact .ok trivial
    · exact .ok trivial

theorem isJson_readScalar (c : Cursor) : Gives (readScalar c) fun x => x.1.IsJson := by
  unfold readScalar
  split
  · rename_i w hw
    exact .ok (isJson_of_mem_words (List.mem_of_find?_eq_some hw))
  · exact isJson_readNumber c

theorem isJsonFields_insert {fields : Fields} {name : Text} {v : Value}
    (hf : IsJsonFields fields) (hv : v.IsJson) : IsJsonFields (fields.insert name v) := by
  induction fields with
  | nil => exact ⟨hv, trivial⟩
  | cons f r ih =>
    rw [Fields.insert]
    split
    · exact ⟨hv, hf.2⟩
    · exact ⟨hf.1, ih hf.2⟩

theorem isJson_read (fuel : Nat) :
    (∀ room c, Gives (readValue fuel room c) fun x => x.1.IsJson) ∧
    (∀ room c, Gives (readItems fuel room c) fun x => IsJsonList x.1) ∧
    ∀ room seen c, IsJsonFields seen →
      Gives (readMembers fuel room seen c) fun x => IsJsonFields x.1 := by
  induction fuel with
  | zero => exact ⟨fun _ _ => .error _, fun _ _ => .error _, fun _ _ _ _ => .error _⟩
  | succ fuel ih =>
    obtain ⟨hvalue, hitems, hmembers⟩ := ih
    refine ⟨?_, ?_, ?_⟩
    · intro room c
      rw [readValue.eq_def]
      dsimp only
      split
      · exact .bind (.trivially _) fun _ _ => .ok trivial
      · split
        · exact .error _
        · split
          · exact .ok trivial
          · exact .bind (hitems _ _) fun _ hxs => .ok hxs
      · split
        · exact .error _
        · split
          · exact .ok trivial
          · exact .bind (hmembers _ _ _ trivial) fun _ hfields => .ok hfields
      · exact isJson_readScalar c
    · intro room c
      rw [readItems.eq_def]
      dsimp only
      refine .bind (hvalue room c) fun x hx => ?_
      split
      · exact .ok ⟨hx, trivial⟩
      · exact .bind (hitems _ _) fun _ hxs => .ok ⟨hx, hxs⟩
      · exact .error _
    · intro room seen c hseen
      rw [readMembers.eq_def]
      dsimp only
      split
      · exact .error _
      · refine .bind (.trivially _) fun name _ => ?_
        split
        · exact .error _
        · refine .bind (hvalue _ _) fun x hx => ?_
          have hinsert : IsJsonFields (Fields.insert name.1 x.1 seen) :=
            isJsonFields_insert hseen hx
          split
          · exact .ok hinsert
          · exact hmembers _ _ _ hinsert
          · exact .error _

theorem isJson_readInput (v : Value) : Gives (readInput v) IsJson := by
  have hread (room : Nat) (text : List Letter) : Gives (Json.read room text) IsJson := by
    refine .bind ((isJson_read _).1 _ _) fun x hx => ?_
    dsimp only
    split
    · exact .ok hx
    · exact .error _
  have htext (s : Text) : Gives (readText s) IsJson := by
    intro w hw
    rw [readText] at hw
    cases hs : Json.read clientRoom s.toList with
    | error e => rw [hs] at hw; cases hw
    | ok x =>
      rw [hs] at hw
      cases hw
      exact hread _ _ _ hs
  unfold readInput
  split
  · split
    · exact .error _
    · exact htext _
  · split
    · exact htext _
    · exact .error _
  · exact .error _

end Json

/-! ### Requests -/

def Request.IsJson (r : Request) : Prop := ∀ f ∈ r.fields, f.2.IsJson

def Filter.IsJson (f : Filter) : Prop := ∀ c ∈ f.comparisons, c.value.IsJson

namespace Filter

open Value

theorem isJson_spelled {cfg : Config} {column : Text} {s : Spelling} {v : Value}
    (hv : v.IsJson) : (spelled cfg column s v).value.IsJson := by
  cases s with
  | comparison o => exact hv
  | pattern word a => trivial

theorem isJson_of_leaf? {cfg : Config} {xs : List Value} (hxs : ∀ x ∈ xs, x.IsJson) {f : Filter}
    (h : leaf? cfg xs = some f) : f.IsJson := by
  intro c hc
  unfold leaf? at h
  split at h
  · obtain ⟨k, -, rfl⟩ := Option.map_eq_some_iff.mp h
    cases hc
  · split at h
    · cases h
    · cases h
      rw [List.mem_singleton.mp hc]
      exact hxs _ (by simp)
  · split at h
    · cases h
    · obtain ⟨s, -, rfl⟩ := Option.map_eq_some_iff.mp h
      rw [List.mem_singleton.mp hc]
      exact isJson_spelled (hxs _ (by simp))
  · cases h

theorem isJson_of_mem_operands {xs ys : List Value} (hxs : ∀ x ∈ xs, x.IsJson)
    (h : ys ∈ operands xs) : ∀ y ∈ ys, y.IsJson := by
  have hlists {zs : List Value} (hzs : ∀ z ∈ zs, z.IsJson) (h : ys ∈ lists zs) :
      ∀ y ∈ ys, y.IsJson := by
    obtain ⟨z, hz, hys⟩ := List.mem_filterMap.mp h
    cases z with
    | list ws =>
      obtain rfl : ws = ys := by simpa using hys
      exact isJsonList_iff.mp (hzs _ hz)
    | _ => cases hys
  unfold operands at h
  split at h
  · cases h
  · cases h
  · exact hlists (fun z hz => hxs z (by simp_all)) h
  · exact hlists hxs h

theorem isJson_writtenIn {cfg : Config} (room : Nat) {xs : List Value}
    (hxs : ∀ x ∈ xs, x.IsJson) : ∀ c ∈ writtenIn cfg room xs, c.value.IsJson := by
  induction room generalizing xs with
  | zero =>
    intro c hc
    cases hc
  | succ room ih =>
    intro c hc
    rcases List.mem_append.mp hc with hc | hc
    · cases hleaf : leaf? cfg xs with
      | none => simp [hleaf] at hc
      | some f =>
        rw [hleaf] at hc
        exact isJson_of_leaf? hxs hleaf c hc
    · obtain ⟨ys, hys, hc⟩ := List.mem_flatMap.mp hc
      exact ih (isJson_of_mem_operands hxs hys) c hc

theorem isJson_clientValue {raw : Value} (h : raw.IsJson) : (clientValue raw).IsJson := by
  have hsent : ∀ v : Value, (if isBlankInput v then .null else
      (decode v).toOption.getD .null : Value).IsJson := by
    intro v
    split
    · trivial
    · rw [decode]
      cases hv : Json.readInput v with
      | error e => trivial
      | ok w =>
        have hw := Json.isJson_readInput v w hv
        cases w <;> first | exact hw | trivial
  cases raw with
  | text s => exact hsent _
  | bytes b => exact h.elim
  | _ => exact h

/-- The filter of a JSON value compares with JSON values only. -/
theorem isJson_ofInput (cfg : Config) {raw : Value} (h : raw.IsJson) :
    (ofInput cfg raw).IsJson := by
  have hclient := isJson_clientValue h
  intro c hc
  rw [ofInput_eq, comparisons_ofValue] at hc
  cases hv : clientValue raw with
  | list xs =>
    rw [hv] at hclient hc
    exact isJson_writtenIn _ (isJsonList_iff.mp hclient) c hc
  | _ =>
    rw [hv] at hc
    cases hc

end Filter

theorem Parameters.isJson_filters (cfg : Config) {fields : Fields}
    (h : ∀ f ∈ fields, f.2.IsJson) : (ofFields cfg fields).filters.IsJson := by
  have hvalue (name : Text) : (valueOf fields name).IsJson := by
    rw [valueOf]
    cases hv : fields.get? name with
    | none => trivial
    | some v =>
      obtain ⟨l₁, l₂, hl, -⟩ := List.lookup_eq_some_iff.mp hv
      exact h (name, v) (by rw [hl]; simp)
  have hfind (aliases : List String) (name : Text) : (find fields aliases name).IsJson := by
    rw [find]
    cases hv : (aliases.map fun (a : String) => valueOf fields a).find?
      fun v => !(isMissing v) with
    | none => exact hvalue name
    | some v =>
      obtain ⟨a, -, rfl⟩ := List.mem_map.mp (List.mem_of_find?_eq_some hv)
      exact hvalue a
  rw [ofFields]
  dsimp only
  split
  · exact hfind _ _
  · exact hvalue _

theorem Descriptor.isJson_filter (cfg : Config) {r : Request} (h : r.IsJson) :
    (ofRequest cfg r).filter.IsJson :=
  Filter.isJson_ofInput cfg (Parameters.isJson_filters cfg h)

end Paging
