import Paging.Page
import Paging.Proofs.JsonValue
import Paging.Proofs.ValueText

/-! Stored text. The text of a value reads back as the value, unless containers nest too deep in it
or an integer has too many digits; so of a stored page the whole is read back or nothing. -/
namespace Paging

namespace Value

mutual

/-- What a stored text can hold: JSON values with finite floats, and no name twice in an object. -/
def IsStorable : Value → Prop
  | .bytes _ | .tuple _ | .float .nan | .float (.infinite _) => False
  | .list xs => IsStorableList xs
  | .object fields => (fields.map Prod.fst).Nodup ∧ IsStorableFields fields
  | .null | .bool _ | .int _ | .float (.finite _ _) | .text _ => True

def IsStorableList : List Value → Prop
  | [] => True
  | x :: xs => x.IsStorable ∧ IsStorableList xs

def IsStorableFields : List (Text × Value) → Prop
  | [] => True
  | (_, x) :: r => x.IsStorable ∧ IsStorableFields r

end

mutual

theorem IsStorable.jsonReady_eq : ∀ {v : Value}, v.IsStorable → v.jsonReady = v
  | .null, _ | .bool _, _ | .int _, _ | .text _, _ | .float (.finite _ _), _ => rfl
  | .float .nan, h | .float (.infinite _), h | .bytes _, h | .tuple _, h => h.elim
  | .list _, h => congrArg list (jsonReadyList_eq h)
  | .object _, h => congrArg object (jsonReadyFields_eq h.2)

theorem jsonReadyList_eq : ∀ {xs : List Value}, IsStorableList xs → jsonReadyList xs = xs
  | [], _ => rfl
  | _ :: _, h => by rw [jsonReadyList, h.1.jsonReady_eq, jsonReadyList_eq h.2]

theorem jsonReadyFields_eq : ∀ {fields : Fields}, IsStorableFields fields →
    jsonReadyFields fields = fields
  | [], _ => rfl
  | _ :: _, h => by rw [jsonReadyFields, h.1.jsonReady_eq, jsonReadyFields_eq h.2]

end

end Value

namespace Json

mutual

/-- What the reader makes of the text of a value when `room` containers may still be opened. -/
def outcome : (room : Nat) → Value → Except Error Value
  | 0, .list _ => .error (.tooDeep .array)
  | 0, .object _ => .error (.tooDeep .object)
  | room + 1, .list xs => do return .list (← outcomeList room xs)
  | room + 1, .object fields => do return .object (← outcomeFields room fields)
  | _, v => scalarOutcome v

def outcomeList : (room : Nat) → List Value → Except Error (List Value)
  | _, [] => .ok []
  | room, x :: xs => do return (← outcome room x) :: (← outcomeList room xs)

def outcomeFields : (room : Nat) → Fields → Except Error Fields
  | _, [] => .ok []
  | room, (k, x) :: fields => do return (k, ← outcome room x) :: (← outcomeFields room fields)

end

mutual

/-- A text is read as the value that it is the text of, if it is read at all. -/
theorem outcome_gives : ∀ (room : Nat) (v : Value), Gives (outcome room v) (· = v)
  | 0, .list _ | 0, .object _ => .error _
  | room + 1, .list xs => by
    rw [outcome]
    exact .bind (outcomeList_gives room xs) fun _ h => .ok (congrArg Value.list h)
  | room + 1, .object fields => by
    rw [outcome]
    exact .bind (outcomeFields_gives room fields) fun _ h => .ok (congrArg Value.object h)
  | room, .int n => by
    have hscalar : outcome room (.int n) = scalarOutcome (.int n) := by cases room <;> rfl
    rw [hscalar, scalarOutcome]
    split
    · exact .error _
    · exact .ok rfl
  | 0, .null | 0, .bool _ | 0, .float _ | 0, .text _ | 0, .bytes _ | 0, .tuple _ => .ok rfl
  | _ + 1, .null | _ + 1, .bool _ | _ + 1, .float _ | _ + 1, .text _ | _ + 1, .bytes _
  | _ + 1, .tuple _ => .ok rfl

theorem outcomeList_gives : ∀ (room : Nat) (xs : List Value), Gives (outcomeList room xs) (· = xs)
  | _, [] => .ok rfl
  | room, x :: xs => by
    rw [outcomeList]
    exact .bind (outcome_gives room x) fun _ h => .bind (outcomeList_gives room xs) fun _ hs =>
      .ok (by rw [h, hs])

theorem outcomeFields_gives : ∀ (room : Nat) (fields : Fields),
    Gives (outcomeFields room fields) (· = fields)
  | _, [] => .ok rfl
  | room, (k, x) :: fields => by
    rw [outcomeFields]
    exact .bind (outcome_gives room x) fun _ h => .bind (outcomeFields_gives room fields)
      fun _ hs => .ok (by rw [h, hs])

end

/-! ### Reading -/

theorem Reads.bind {α β : Type} {m : Except Error (α × Cursor)} {o : Except Error α}
    {k : α × Cursor → Except Error (β × Cursor)} {o' : α → Except Error β} {r s : List Letter}
    (h : Reads m o r) (hk : ∀ v q, Reads (k (v, ⟨r, q⟩)) (o' v) s) :
    Reads (m >>= k) (o >>= o') s := by
  obtain ⟨q, rfl⟩ := h
  cases o with
  | error e => exact ⟨q, rfl⟩
  | ok v => exact hk v q

theorem Reads.then {α β : Type} {m : Except Error (α × Cursor)} {v : α}
    {k : α × Cursor → Except Error (β × Cursor)} {o : Except Error β} {r s : List Letter}
    (h : Reads m (.ok v) r) (hk : ∀ q, Reads (k (v, ⟨r, q⟩)) o s) : Reads (m >>= k) o s := by
  obtain ⟨q, rfl⟩ := h
  exact hk q

theorem Reads.return {α : Type} (v : α) (r : List Letter) (q : Nat) :
    Reads (pure (v, ⟨r, q⟩)) (pure v) r := ⟨q, rfl⟩

/-- The text neither starts with white space nor closes a list or an object. -/
def Begins (t : List Letter) : Prop :=
  ∃ c s, t = c :: s ∧ c ≠ ']' ∧ c ≠ '\x7d' ∧ isSpace c = false

theorem Begins.append {t : List Letter} (h : Begins t) (r : List Letter) : Begins (t ++ r) := by
  obtain ⟨c, s, rfl, hc⟩ := h
  exact ⟨c, s ++ r, rfl, hc⟩

theorem skipSpaces_cons {c : Letter} (hc : isSpace c = false) (cs : List Letter) (p : Nat) :
    skipSpaces ⟨c :: cs, p⟩ = ⟨c :: cs, p⟩ := by
  simp [skipSpaces, hc, Cursor.skip]

theorem Begins.skipSpaces_eq {t : List Letter} (h : Begins t) (p : Nat) :
    skipSpaces ⟨t, p⟩ = ⟨t, p⟩ := by
  obtain ⟨c, s, rfl, -, -, hc⟩ := h
  exact skipSpaces_cons hc s p

theorem skip_one (c : Letter) (cs : List Letter) (p : Nat) :
    Cursor.skip ⟨c :: cs, p⟩ 1 = ⟨cs, p + 1⟩ := rfl

theorem writes_stored {v : Value} (hv : v.IsStorable) : ∀ x, v = .float x → stored.Writes x
  | .finite negative x, _ => stored_writes negative x
  | .nan, h | .infinite _, h => by
    subst h
    exact hv.elim

theorem begins_chars {v : Value} (hv : v.IsStorable) : Begins (stored.chars v) := by
  obtain ⟨c, cs, hcs, hc⟩ := opens_chars stored (writes_stored hv)
  exact ⟨c, cs, hcs, hc.ne⟩

theorem begins_listChars {x : Value} (hx : x.IsStorable) (xs : List Value) :
    Begins (Form.commas (stored.listChars (x :: xs))) := by
  rw [Form.listChars, commas_cons]
  exact (begins_chars hx).append _

theorem begins_stringText (s : Text) : Begins (stored.stringText s) :=
  ⟨'\x22', _, rfl, by decide, by decide, rfl⟩

theorem begins_memberTexts (f : Text × Value) (fields : Fields) :
    Begins (Form.commas (memberTexts stored (f :: fields))) := by
  rw [memberTexts, Form.fieldChars, List.map_cons, commas_cons]
  exact ((begins_stringText f.1).append _).append _

theorem ends_cons {c : Letter} (hc : c = ',' ∨ c = ']' ∨ c = '\x7d') (s : List Letter) :
    Ends (c :: s) := by
  rintro _ ⟨⟩
  exact hc

theorem insert_of_notMem {name : Text} (v : Value) {seen : Fields}
    (h : name ∉ seen.map Prod.fst) : seen.insert name v = seen ++ [(name, v)] := by
  induction seen with
  | nil => rfl
  | cons f seen ih =>
    obtain ⟨hne, hmem⟩ := not_or.mp (List.mem_cons.not.mp h)
    rw [Fields.insert, if_neg (Ne.symm hne), ih hmem]
    rfl

theorem notMem_of_nodup_append {k : Text} {x : Value} {seen fields : Fields}
    (h : ((seen ++ (k, x) :: fields).map Prod.fst).Nodup) : k ∉ seen.map Prod.fst := by
  rw [List.map_append] at h
  exact fun hk => (List.nodup_append.mp h).2.2 k hk k List.mem_cons_self rfl

/-! ### One step of the reader -/

variable {fuel room : Nat} {r : List Letter}

theorem readValue_text (s : Text) (p : Nat) :
    Reads (readValue (fuel + 1) room ⟨stored.chars (.text s) ++ r, p⟩) (.ok (.text s)) r := by
  have htext : stored.chars (.text s) ++ r =
      .char '\x22' :: (s.toList.flatMap stored.stringChar ++ .char '\x22' :: r) := by
    simp [Form.chars, Form.stringText]
  have hstring : Reads
      (readString ⟨s.toList.flatMap stored.stringChar ++ .char '\x22' :: r, p + 1⟩ >>= fun x =>
        pure (Value.text x.1, x.2)) (.ok (.text s)) r :=
    (reads_string (stored_legible s.toList) r (p + 1)).then fun q => .return _ r q
  rw [htext]
  cases room <;> exact hstring

theorem readValue_scalar_stored {v : Value} (hv : v.IsStorable) (hscalar : mark v = none)
    (hr : Ends r) (p : Nat) :
    Reads (readValue (fuel + 1) room ⟨stored.chars v ++ r, p⟩) (outcome room v) r := by
  have houtcome : outcome room v = scalarOutcome v := by
    cases v <;> cases room <;> first | rfl | cases hscalar
  rw [houtcome]
  exact reads_scalar stored hscalar (writes_stored hv) fuel room hr p

theorem readValue_list {o : Except Error (List Value)} {t : List Letter} (ht : Begins t)
    (h : ∀ p, Reads (readItems fuel room ⟨t, p⟩) o r) (p : Nat) :
    Reads (readValue (fuel + 1) (room + 1) ⟨'[' :: t, p⟩) (do return Value.list (← o)) r := by
  have hne : t.head? ≠ some (.char ']') := by
    obtain ⟨c, s, rfl, hc, -⟩ := ht
    simpa using hc
  rw [readValue.eq_def]
  dsimp only
  rw [skip_one, ht.skipSpaces_eq, if_neg hne]
  exact (h (p + 1)).bind fun xs q => .return (Value.list xs) r q

theorem readValue_object {o : Except Error Fields} {t : List Letter} (ht : Begins t)
    (h : ∀ p, Reads (readMembers fuel room [] ⟨t, p⟩) o r) (p : Nat) :
    Reads (readValue (fuel + 1) (room + 1) ⟨'\x7b' :: t, p⟩) (do return Value.object (← o)) r := by
  have hne : t.head? ≠ some (.char '\x7d') := by
    obtain ⟨c, s, rfl, -, hc, -⟩ := ht
    simpa using hc
  rw [readValue.eq_def]
  dsimp only
  rw [skip_one, ht.skipSpaces_eq, if_neg hne]
  exact (h (p + 1)).bind fun fields q => .return (Value.object fields) r q

theorem readItems_last {o : Except Error Value} {c : Cursor}
    (h : Reads (readValue fuel room c) o (']' :: r)) :
    Reads (readItems (fuel + 1) room c) (do return [← o]) r := by
  rw [readItems.eq_def]
  refine h.bind fun v q => ?_
  dsimp only
  rw [skipSpaces_cons rfl]
  exact .return [v] r (q + 1)

theorem readItems_next {o : Except Error Value} {os : Except Error (List Value)} {c : Cursor}
    {t : List Letter} (h : Reads (readValue fuel room c) o (',' :: t)) (ht : Begins t)
    (hs : ∀ p, Reads (readItems fuel room ⟨t, p⟩) os r) :
    Reads (readItems (fuel + 1) room c) (do return (← o) :: (← os)) r := by
  rw [readItems.eq_def]
  refine h.bind fun v q => ?_
  dsimp only
  rw [skipSpaces_cons rfl]
  dsimp only
  rw [skip_one, ht.skipSpaces_eq]
  exact (hs (q + 1)).bind fun vs q => .return (v :: vs) r q

theorem reads_name (k : Text) (s : List Letter) (p : Nat) :
    Reads (readString (Cursor.skip ⟨stored.stringText k ++ s, p⟩ 1)) (.ok k) s := by
  have hskip : Cursor.skip ⟨stored.stringText k ++ s, p⟩ 1 =
      ⟨k.toList.flatMap stored.stringChar ++ .char '\x22' :: s, p + 1⟩ := by
    simp [Form.stringText, Cursor.skip]
  rw [hskip]
  exact reads_string (stored_legible k.toList) s (p + 1)

variable (seen : Fields) {o : Except Error Value} {s : List Letter}

theorem readMembers_last (k : Text) (hs : Begins s)
    (h : ∀ p, Reads (readValue fuel room ⟨s, p⟩) o ('\x7d' :: r)) (p : Nat) :
    Reads (readMembers (fuel + 1) room seen ⟨stored.stringText k ++ .char ':' :: s, p⟩)
      (do return seen.insert k (← o)) r := by
  rw [readMembers.eq_def]
  dsimp only
  rw [if_neg (by simp [Form.stringText])]
  refine (reads_name k (':' :: s) p).then fun q => ?_
  dsimp only
  rw [skipSpaces_cons rfl, if_neg (by simp), skip_one, hs.skipSpaces_eq]
  refine (h (q + 1)).bind fun v q => ?_
  dsimp only
  rw [skipSpaces_cons rfl]
  exact .return _ r (q + 1)

theorem readMembers_next (k : Text) (hs : Begins s) {t : List Letter}
    (h : ∀ p, Reads (readValue fuel room ⟨s, p⟩) o (',' :: t)) (ht : Begins t)
    {os : Value → Except Error Fields}
    (hmore : ∀ v p, Reads (readMembers fuel room (seen.insert k v) ⟨t, p⟩) (os v) r) (p : Nat) :
    Reads (readMembers (fuel + 1) room seen ⟨stored.stringText k ++ .char ':' :: s, p⟩)
      (o >>= os) r := by
  rw [readMembers.eq_def]
  dsimp only
  rw [if_neg (by simp [Form.stringText])]
  refine (reads_name k (':' :: s) p).then fun q => ?_
  dsimp only
  rw [skipSpaces_cons rfl, if_neg (by simp), skip_one, hs.skipSpaces_eq]
  refine (h (q + 1)).bind fun v q => ?_
  dsimp only
  rw [skipSpaces_cons rfl]
  dsimp only
  rw [skip_one, ht.skipSpaces_eq]
  exact hmore v (q + 1)

open Value

mutual

/-- The text of a value reads to its outcome, given two steps for every character. -/
theorem reads_stored : ∀ (v : Value), v.IsStorable →
    ∀ (fuel room : Nat) (r : List Letter) (p : Nat),
    Ends r → 2 * (stored.chars v).length ≤ fuel →
      Reads (readValue fuel room ⟨stored.chars v ++ r, p⟩) (outcome room v) r
  | v, hv, 0, room, r, p, hr, hfuel => by
    obtain ⟨c, cs, hcs, -⟩ := begins_chars hv
    rw [hcs, List.length_cons] at hfuel
    omega
  | .text s, _, fuel + 1, room, r, p, hr, hfuel => by
    cases room <;> exact readValue_text s p
  | .list xs, hv, fuel + 1, 0, r, p, hr, hfuel => ⟨0, by rw [chars_list]; rfl⟩
  | .list [], hv, fuel + 1, room + 1, r, p, hr, hfuel => ⟨p + 1 + 1, rfl⟩
  | .list (x :: xs), hv, fuel + 1, room + 1, r, p, hr, hfuel => by
    have hlength : 2 * (Form.commas (stored.listChars (x :: xs))).length + 2 ≤ fuel := by
      simp only [Form.chars, List.length_append, List.length_cons, List.length_nil] at hfuel
      omega
    rw [chars_list]
    exact readValue_list ((begins_listChars hv.1 xs).append _)
      (fun p => reads_items (x :: xs) (List.cons_ne_nil _ _) hv fuel room r p hlength) p
  | .object fields, hv, fuel + 1, 0, r, p, hr, hfuel => ⟨0, by rw [chars_object rfl]; rfl⟩
  | .object [], hv, fuel + 1, room + 1, r, p, hr, hfuel => ⟨p + 1 + 1, rfl⟩
  | .object (f :: fields), hv, fuel + 1, room + 1, r, p, hr, hfuel => by
    have hlength : 2 * (Form.commas (memberTexts stored (f :: fields))).length + 2 ≤ fuel := by
      have hchars := congrArg List.length (chars_object (f := stored) rfl (f :: fields) [])
      simp only [List.append_nil, List.length_append, List.length_cons, List.length_nil] at hchars
      omega
    have hmembers (p : Nat) := reads_members (f :: fields) (List.cons_ne_nil _ _) hv.2 [] fuel room
      r p hv.1 hlength
    simp only [List.nil_append, bind_pure] at hmembers
    rw [chars_object rfl]
    exact readValue_object ((begins_memberTexts f fields).append _) hmembers p
  | .null, hv, fuel + 1, room, r, p, hr, _ => readValue_scalar_stored hv rfl hr p
  | .bool _, hv, fuel + 1, room, r, p, hr, _ => readValue_scalar_stored hv rfl hr p
  | .int _, hv, fuel + 1, room, r, p, hr, _ => readValue_scalar_stored hv rfl hr p
  | .float (.finite _ _), hv, fuel + 1, room, r, p, hr, _ => readValue_scalar_stored hv rfl hr p

theorem reads_items : ∀ (xs : List Value), xs ≠ [] → IsStorableList xs →
    ∀ (fuel room : Nat) (r : List Letter) (p : Nat),
      2 * (Form.commas (stored.listChars xs)).length + 2 ≤ fuel →
        Reads (readItems fuel room ⟨Form.commas (stored.listChars xs) ++ .char ']' :: r, p⟩)
          (outcomeList room xs) r
  | [], h, _, _, _, _, _, _ => absurd rfl h
  | [x], _, hx, fuel + 1, room, r, p, hfuel => by
    rw [Form.listChars, Form.listChars, commas_singleton] at hfuel ⊢
    exact readItems_last (reads_stored x hx.1 fuel room (']' :: r) p (ends_cons (by simp) r)
      (by omega))
  | x :: y :: ys, _, hx, fuel + 1, room, r, p, hfuel => by
    have hitems := reads_items (y :: ys) (List.cons_ne_nil _ _) hx.2 fuel room r
    rw [Form.listChars, Form.listChars, commas_cons_cons, ← Form.listChars] at hfuel ⊢
    simp only [List.length_append, List.length_cons] at hfuel
    rw [List.append_assoc]
    exact readItems_next (reads_stored x hx.1 fuel room _ p (ends_cons (by simp) _) (by omega))
      ((begins_listChars hx.2.1 ys).append _) fun p => hitems p (by omega)

theorem reads_members : ∀ (fields : Fields), fields ≠ [] → IsStorableFields fields →
    ∀ (seen : Fields) (fuel room : Nat) (r : List Letter) (p : Nat),
      ((seen ++ fields).map Prod.fst).Nodup →
      2 * (Form.commas (memberTexts stored fields)).length + 2 ≤ fuel →
        Reads
          (readMembers fuel room seen
            ⟨Form.commas (memberTexts stored fields) ++ .char '\x7d' :: r, p⟩)
          (do return seen ++ (← outcomeFields room fields)) r
  | [], h, _, _, _, _, _, _, _, _ => absurd rfl h
  | [(k, x)], _, hx, seen, fuel + 1, room, r, p, hnodup, hfuel => by
    have hinsert (v : Value) := insert_of_notMem v (notMem_of_nodup_append hnodup)
    have htext : Form.commas (memberTexts stored [(k, x)]) =
        stored.stringText k ++ .char ':' :: stored.chars x := commas_singleton _
    rw [htext, List.length_append, List.length_cons] at hfuel
    have hnil : outcomeFields room [] = pure [] := rfl
    rw [htext, List.append_assoc, List.cons_append]
    have hlast := readMembers_last seen k ((begins_chars hx.1).append _) (fun p =>
      reads_stored x hx.1 fuel room ('\x7d' :: r) p (ends_cons (by simp) r) (by omega)) p
    rw [outcomeFields, hnil]
    simpa only [hinsert, bind_assoc, pure_bind] using hlast
  | (k, x) :: f :: fields, _, hx, seen, fuel + 1, room, r, p, hnodup, hfuel => by
    have hinsert (v : Value) := insert_of_notMem v (notMem_of_nodup_append hnodup)
    have htext : Form.commas (memberTexts stored ((k, x) :: f :: fields)) =
        stored.stringText k ++ .char ':' :: (stored.chars x ++
          .char ',' :: Form.commas (memberTexts stored (f :: fields))) := by
      simp only [memberTexts, Form.fieldChars, List.map_cons, commas_cons_cons, List.append_assoc,
        List.cons_append]
    rw [htext] at hfuel ⊢
    simp only [List.length_append, List.length_cons] at hfuel
    have hmore (v : Value) (p : Nat) := reads_members (f :: fields) (List.cons_ne_nil _ _) hx.2
      (seen.insert k v) fuel room r p (by
        rw [hinsert]
        simpa using hnodup) (by omega)
    have hnext := readMembers_next seen k ((begins_chars hx.1).append _) (fun p =>
      reads_stored x hx.1 fuel room _ p (ends_cons (by simp) _) (by omega))
      ((begins_memberTexts f fields).append _) hmore p
    rw [outcomeFields]
    simpa only [hinsert, bind_assoc, pure_bind, List.append_assoc, List.cons_append,
      List.nil_append] using hnext

end

theorem read_stored {v : Value} (hv : v.IsStorable) (room : Nat) :
    Json.read room (stored.chars v) = outcome room v := by
  obtain ⟨q, hread⟩ := reads_stored v hv (2 * (stored.chars v).length + 2) room [] 0 ends_nil
    (by omega)
  rw [List.append_nil] at hread
  rw [Json.read, (begins_chars hv).skipSpaces_eq, hread]
  cases outcome room v <;> rfl

end Json

namespace Row

@[simp] theorem ofValue?_value (r : Row) : ofValue? r.value = some r := dif_pos r.whole

theorem mapM_ofValue? (rows : List Row) : (rows.map value).mapM ofValue? = some rows := by
  induction rows with
  | nil => rfl
  | cons r rows ih => rw [List.map_cons, List.mapM_cons, ofValue?_value, ih]; rfl

theorem isWholeList_map (rows : List Row) : Value.isWholeList (rows.map value) = true := by
  induction rows with
  | nil => rfl
  | cons r rows ih => rw [List.map_cons, Value.isWholeList, r.whole, ih]; rfl

end Row

namespace Page

open Value

/-- Rows that a stored text can hold. -/
def IsStorable (p : Page) : Prop := IsStorableList (p.items.map Row.value)

theorem ofFields_allFields {p : Page} (hp : p.IsStorable) : ofFields p.allFields = .ok p := by
  have hrows : toRows (.list (jsonReadyList (p.items.map Row.value))) = .ok p.items := by
    show (((jsonReadyList (p.items.map Row.value)).mapM Row.ofValue?).elim _ _ :
      Except ProblemKind (List Row)) = _
    rw [jsonReadyList_eq hp, Row.mapM_ofValue?]
    rfl
  have hitems : Validation.field p.allFields "items" ({} : Page).items toRows = .ok p.items :=
    congrArg (Except.mapError _) hrows
  have htext (m : String) : Validation.orNull Validation.toText (.text m) = .ok (some m) := by
    simp [Validation.orNull, Validation.toText, Except.map]
  have hmessage : Validation.field p.allFields "error_message" ({} : Page).errorMessage
      (Validation.orNull Validation.toText) = .ok p.errorMessage := by
    cases h : p.errorMessage with
    | none =>
      rw [allFields, h]
      rfl
    | some m =>
      rw [allFields, h]
      exact congrArg (Except.mapError _) (htext m)
  rw [ofFields]
  dsimp only
  rw [hitems, hmessage]
  rfl

theorem isStorable_allFields {p : Page} (hp : p.IsStorable) :
    (Value.object p.allFields).IsStorable := by
  have hitems : IsStorableList (jsonReadyList (p.items.map Row.value)) := by
    rwa [jsonReadyList_eq hp]
  refine ⟨by simp [allFields], hitems, ?_⟩
  cases p.errorMessage <;> simp [IsStorableFields, Value.IsStorable]

theorem isWhole_allFields {p : Page} (hp : p.IsStorable) :
    (Value.object p.allFields).isWhole = true := by
  have hitems : isWholeList (jsonReadyList (p.items.map Row.value)) = true := by
    rw [jsonReadyList_eq hp, Row.isWholeList_map]
  cases h : p.errorMessage <;> simp [allFields, h, isWhole, isWholeFields, hitems]

/-- A page is read back from its text, unless the reader gives up on the text. -/
theorem ofJson_toJson {p : Page} (hp : p.IsStorable) :
    ofJson p.toJson = if (Json.outcome storedRoom (.object p.allFields)).isOk then .ok p
      else .error [⟨[], .jsonInvalid⟩] := by
  have hread : Json.read storedRoom p.toJson.toList =
      Json.outcome storedRoom (.object p.allFields) := by
    rw [toJson, Json.Form.render, Text.toList_ofList, Json.read_stored (isStorable_allFields hp)]
  rw [ofJson, hread]
  have hgives := Json.outcome_gives storedRoom (.object p.allFields)
  cases h : Json.outcome storedRoom (.object p.allFields) with
  | error e => rfl
  | ok v =>
    obtain rfl : v = .object p.allFields := hgives v h
    show (if (Value.object p.allFields).isWhole then ofFields p.allFields else _) = .ok p
    rw [if_pos (isWhole_allFields hp), ofFields_allFields hp]

theorem ofJson_toJson_gives {p : Page} (hp : p.IsStorable) : Gives (ofJson p.toJson) (· = p) := by
  rw [ofJson_toJson hp]
  split
  · exact .ok rfl
  · exact .error _

end Page

end Paging
