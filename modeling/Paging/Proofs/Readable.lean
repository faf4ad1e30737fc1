import Paging.Proofs.Stored

/-! Which pages can be read back. The reader gives up on a text in which containers nest too deep
or an integer has too many digits, and on no other text of a page. -/
namespace Paging

namespace Value

mutual

def depth : Value → Nat
  | .list xs => depthList xs + 1
  | .object fields => depthFields fields + 1
  | _ => 0

def depthList : List Value → Nat
  | [] => 0
  | x :: xs => max x.depth (depthList xs)

def depthFields : List (Text × Value) → Nat
  | [] => 0
  | (_, x) :: r => max x.depth (depthFields r)

end

mutual

def ints : Value → List Int
  | .int n => [n]
  | .list xs => intsList xs
  | .object fields => intsFields fields
  | _ => []

def intsList : List Value → List Int
  | [] => []
  | x :: xs => x.ints ++ intsList xs

def intsFields : List (Text × Value) → List Int
  | [] => []
  | (_, x) :: r => x.ints ++ intsFields r

end

end Value

namespace Json

/-- None of some integers has more digits than the reader takes. -/
def Short (ns : List Int) : Prop :=
  ∀ n ∈ ns, (Nat.toDigits 10 n.natAbs).length ≤ Decimal.maxDigits

instance (ns : List Int) : Decidable (Short ns) :=
  inferInstanceAs (Decidable (∀ n ∈ ns, _ ≤ _))

theorem short_append {ns ms : List Int} : Short (ns ++ ms) ↔ Short ns ∧ Short ms :=
  List.forall_mem_append

theorem isOk_map {α β : Type} (o : Except Error α) (f : α → β) :
    (do return f (← o)).isOk = o.isOk := by
  cases o <;> rfl

theorem isOk_map₂ {α β γ : Type} (o : Except Error α) (o' : Except Error β) (f : α → β → γ) :
    (do return f (← o) (← o')).isOk = (o.isOk && o'.isOk) := by
  cases o <;> cases o' <;> rfl

theorem scalarOutcome_isOk (n : Int) :
    (scalarOutcome (.int n)).isOk = true ↔ Short [n] := by
  rw [scalarOutcome, Short, List.forall_mem_singleton]
  split
  · rename_i hlong
    exact ⟨nofun, fun h => by omega⟩
  · exact ⟨fun _ => by omega, fun _ => rfl⟩

open Value

mutual

/-- A text is read if its value neither nests deeper than there is room nor has a long integer. -/
theorem outcome_isOk : ∀ (room : Nat) (v : Value),
    (outcome room v).isOk = true ↔ v.depth ≤ room ∧ Short v.ints
  | 0, .list _ | 0, .object _ => ⟨nofun, fun h => absurd h.1 (by simp [depth])⟩
  | room + 1, .list xs => by
    rw [outcome, isOk_map, outcomeList_isOk room xs, depth, ints, Nat.add_le_add_iff_right]
  | room + 1, .object fields => by
    rw [outcome, isOk_map, outcomeFields_isOk room fields, depth, ints, Nat.add_le_add_iff_right]
  | room, .int n => by
    have hscalar : outcome room (.int n) = scalarOutcome (.int n) := by cases room <;> rfl
    rw [hscalar, scalarOutcome_isOk]
    exact ⟨fun h => ⟨Nat.zero_le _, h⟩, fun h => h.2⟩
  | 0, .null | 0, .bool _ | 0, .float _ | 0, .text _ | 0, .bytes _ | 0, .tuple _
  | _ + 1, .null | _ + 1, .bool _ | _ + 1, .float _ | _ + 1, .text _ | _ + 1, .bytes _
  | _ + 1, .tuple _ => ⟨fun _ => ⟨Nat.zero_le _, nofun⟩, fun _ => rfl⟩

theorem outcomeList_isOk : ∀ (room : Nat) (xs : List Value),
    (outcomeList room xs).isOk = true ↔ depthList xs ≤ room ∧ Short (intsList xs)
  | _, [] => ⟨fun _ => ⟨Nat.zero_le _, nofun⟩, fun _ => rfl⟩
  | room, x :: xs => by
    rw [outcomeList, isOk_map₂, Bool.and_eq_true, outcome_isOk room x, outcomeList_isOk room xs,
      depthList, intsList, Nat.max_le, short_append]
    tauto

theorem outcomeFields_isOk : ∀ (room : Nat) (fields : Fields),
    (outcomeFields room fields).isOk = true ↔ depthFields fields ≤ room ∧ Short (intsFields fields)
  | _, [] => ⟨fun _ => ⟨Nat.zero_le _, nofun⟩, fun _ => rfl⟩
  | room, (k, x) :: fields => by
    have hmap := isOk_map₂ (outcome room x) (outcomeFields room fields) fun x r => (k, x) :: r
    rw [outcomeFields, hmap, Bool.and_eq_true, outcome_isOk room x, outcomeFields_isOk room fields,
      depthFields, intsFields, Nat.max_le, short_append]
    tauto

end

end Json

namespace Page

/-- A page can be read back from its text: with the page and its list of rows counted in, containers
nest no deeper than there is room, and no integer has too many digits. -/
def Fits (p : Page) : Prop :=
  Value.depthList (p.items.map Row.value) + 2 ≤ storedRoom ∧
    Json.Short (Value.intsList (p.items.map Row.value) ++
      [p.page, p.size, p.maxPage, p.totalPages, p.total, p.visible])

instance (p : Page) : Decidable p.Fits :=
  inferInstanceAs (Decidable (_ ≤ _ ∧ _))

end Page

end Paging
