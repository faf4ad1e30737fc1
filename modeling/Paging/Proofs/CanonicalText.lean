import Paging.Cache.Key
import Paging.Proofs.FieldOrder
import Paging.Proofs.ValueText

/-! The canonical text of a value. It determines the value up to the order of fields, as its
bytes determine the text: no two values that differ otherwise have one digest input. -/
namespace Paging

namespace Json

variable {f : Form}

theorem Reads.unique {α : Type} {m : Except Error (α × Cursor)} {o o' : Except Error α}
    {r s : List Letter} (h : Reads m o r) (h' : Reads m o' s) {v : α} (ho : o = .ok v) :
    o' = .ok v ∧ r = s := by
  obtain ⟨q, rfl⟩ := h
  obtain ⟨q', h'⟩ := h'
  rw [ho] at h'
  cases o' with
  | error e => cases h'
  | ok w =>
    obtain ⟨rfl, hcursor⟩ := Prod.mk.inj (Except.ok.inj h')
    exact ⟨rfl, (Cursor.mk.inj hcursor).1⟩

/-- A form whose text can be taken apart: characters and floats read back, and fields keep their
order. -/
structure Form.Transparent (f : Form) : Prop where
  legible : ∀ {s : Text}, s.IsJoined → Legible f.stringChar s.toList
  writes : ∀ x, f.Writes x
  unsorted : f.sorted = false

theorem stringText_append_inj {s t : Text} (hs : Legible f.stringChar s.toList)
    (ht : Legible f.stringChar t.toList) {r r' : List Letter}
    (h : f.stringText s ++ r = f.stringText t ++ r') : s = t ∧ r = r' := by
  have hbody : s.toList.flatMap f.stringChar ++ .char '\x22' :: r =
      t.toList.flatMap f.stringChar ++ .char '\x22' :: r' := by
    simpa [Form.stringText] using h
  have hread := reads_string ht r' 0
  rw [← hbody] at hread
  obtain ⟨heq, hrest⟩ := (reads_string hs r 0).unique hread rfl
  exact ⟨(Except.ok.inj heq).symm, hrest⟩

theorem int_append_inj {n m : Int} {r s : List Letter} (hr : Ends r) (hs : Ends s)
    (h : letters (toString n).toList ++ r = letters (toString m).toList ++ s) : n = m ∧ r = s := by
  rw [toList_toString_int, toList_toString_int, letters_append, letters_append, List.append_assoc,
    List.append_assoc] at h
  have hsign (k : Nat) (tail : List Letter) : (letters (Nat.toDigits 10 k) ++ tail).head? ≠
      some (.char '-') := by
    obtain ⟨c, cs, hcs⟩ := List.exists_cons_of_ne_nil (Nat.toDigits_ne_nil (b := 10) (n := k))
    have hc := isDigits_toDigits k c (by rw [hcs]; exact List.mem_cons_self)
    rw [hcs, letters_cons, List.cons_append, List.head?_cons]
    rintro ⟨⟩
    exact absurd hc (by decide)
  obtain ⟨p, hp⟩ := takeSign_signText (n < 0) (hsign n.natAbs r) 0
  obtain ⟨p', hp'⟩ := takeSign_signText (m < 0) (hsign m.natAbs s) 0
  rw [h, hp'] at hp
  obtain ⟨hneg, hcursor⟩ := Prod.mk.inj hp
  have hbody : letters (Nat.toDigits 10 m.natAbs) ++ s = letters (Nat.toDigits 10 n.natAbs) ++ r :=
    (Cursor.mk.inj hcursor).1
  have hdigits : Nat.toDigits 10 m.natAbs = Nat.toDigits 10 n.natAbs := by
    refine Text.letters_injective ?_
    rw [← (isDigits_toDigits m.natAbs).takeWhile_append hs.takeWhile_isDigit, hbody,
      (isDigits_toDigits n.natAbs).takeWhile_append hr.takeWhile_isDigit]
  have habs : m.natAbs = n.natAbs := by
    rw [← Nat.ofDigitChars_ten_toDigits (n := m.natAbs), hdigits, Nat.ofDigitChars_ten_toDigits]
  rw [hdigits] at hbody
  have hiff : m < 0 ↔ n < 0 := by simpa using hneg
  exact ⟨by omega, (List.append_cancel_left hbody).symm⟩

theorem scalarOutcome_cases {v : Value} (hv : IsScalar v) :
    scalarOutcome v = .ok v ∨ ∃ n e, v = .int n ∧ scalarOutcome v = .error e := by
  cases v with
  | int n =>
    rw [scalarOutcome]
    split
    · exact Or.inr ⟨n, _, rfl, rfl⟩
    · exact Or.inl rfl
  | null | bool _ | float _ => exact Or.inl rfl
  | text _ | bytes _ | list _ | tuple _ | object _ => cases hv

theorem mark_eq_of_append_eq (hf : ∀ x, f.Writes x) {v w : Value} {r s : List Letter}
    (h : f.chars v ++ r = f.chars w ++ s) : mark v = mark w := by
  obtain ⟨c, cs, hcs, hc⟩ := opens_chars f (v := v) (fun x _ => hf x)
  obtain ⟨d, ds, hds, hd⟩ := opens_chars f (v := w) (fun x _ => hf x)
  rw [hcs, hds] at h
  obtain rfl : c = d := (List.cons.inj h).1
  exact hc.mark_eq hd

theorem scalar_append_inj (hf : ∀ x, f.Writes x) {v w : Value} (hv : IsScalar v)
    {r s : List Letter} (hr : Ends r) (hs : Ends s) (h : f.chars v ++ r = f.chars w ++ s) :
    v = w ∧ r = s := by
  have hw : IsScalar w := (mark_eq_of_append_eq hf h).symm.trans hv
  have hreadv := reads_scalar f hv (fun x _ => hf x) 0 0 hr 0
  have hreadw := reads_scalar f hw (fun x _ => hf x) 0 0 hs 0
  rw [← h] at hreadw
  rcases scalarOutcome_cases hv with hov | ⟨n, e, rfl, hov⟩
  · obtain ⟨how, hrest⟩ := hreadv.unique hreadw hov
    rcases scalarOutcome_cases hw with how' | ⟨m, e, rfl, how'⟩
    · exact ⟨Except.ok.inj (how.symm.trans how'), hrest⟩
    · rw [how'] at how
      cases how
  · -- Too many digits are not read, but the digits themselves tell two integers apart.
    rcases scalarOutcome_cases hw with how | ⟨m, e', rfl, how⟩
    · obtain ⟨hov', -⟩ := hreadw.unique hreadv how
      rw [hov] at hov'
      cases hov'
    · obtain ⟨rfl, hrest⟩ := int_append_inj hr hs h
      exact ⟨rfl, hrest⟩

/-! ### Lists and objects -/

def tails (pieces : List (List Letter)) : List Letter := pieces.flatMap fun q => .char ',' :: q

theorem ends_tails (pieces : List (List Letter)) {close : Letter}
    (hclose : close = ']' ∨ close = '\x7d') (r : List Letter) :
    Ends (tails pieces ++ close :: r) := by
  intro c hc
  cases pieces with
  | nil =>
    obtain rfl : close = c := by simpa [tails] using hc
    exact Or.inr hclose
  | cons p ps =>
    obtain rfl : ',' = c := by simpa [tails] using hc
    exact Or.inl rfl

theorem tails_of_commas {close : Letter} {ps qs : List (List Letter)}
    (hps : ∀ p ∈ ps, ∃ c cs, p = c :: cs ∧ c ≠ close)
    (hqs : ∀ q ∈ qs, ∃ c cs, q = c :: cs ∧ c ≠ close)
    {r s : List Letter} (h : Form.commas ps ++ close :: r = Form.commas qs ++ close :: s) :
    tails ps ++ close :: r = tails qs ++ close :: s := by
  cases ps with
  | nil =>
    cases qs with
    | nil => exact h
    | cons q qs =>
      obtain ⟨c, cs, rfl, hc⟩ := hqs q List.mem_cons_self
      rw [commas_cons] at h
      exact absurd (List.cons.inj h).1.symm hc
  | cons p ps =>
    cases qs with
    | nil =>
      obtain ⟨c, cs, rfl, hc⟩ := hps p List.mem_cons_self
      rw [commas_cons] at h
      exact absurd (List.cons.inj h).1 hc
    | cons q qs =>
      rw [commas_cons, commas_cons] at h
      exact congrArg (List.cons (.char ',')) h

theorem opens_listChars (hf : ∀ x, f.Writes x) (xs : List Value) :
    ∀ p ∈ f.listChars xs, ∃ c cs, p = c :: cs ∧ c ≠ ']' := by
  induction xs with
  | nil => simp [Form.listChars]
  | cons x xs ih =>
    intro p hp
    rcases List.mem_cons.mp hp with rfl | hp
    · obtain ⟨c, cs, hcs, hc⟩ := opens_chars f (v := x) (fun y _ => hf y)
      exact ⟨c, cs, hcs, hc.ne.1⟩
    · exact ih p hp

theorem opens_memberTexts (fields : Fields) :
    ∀ p ∈ memberTexts f fields, ∃ c cs, p = c :: cs ∧ c ≠ '\x7d' := by
  intro p hp
  obtain ⟨m, -, rfl⟩ := List.mem_map.mp hp
  exact ⟨'\x22', _, rfl, by decide⟩

theorem exists_of_mark {w : Value} (hw : w.IsJson) {c : Letter} (h : mark w = some c) :
    (c = '\x22' → ∃ s, w = .text s) ∧ (c = '[' → ∃ xs, w = .list xs) ∧
      (c = '\x7b' → ∃ fields, w = .object fields) := by
  cases w with
  | bytes _ | tuple _ => exact hw.elim
  | text s => cases h; exact ⟨fun _ => ⟨s, rfl⟩, by simp, by simp⟩
  | list xs => cases h; exact ⟨by simp, fun _ => ⟨xs, rfl⟩, by simp⟩
  | object fields => cases h; exact ⟨by simp, by simp, fun _ => ⟨fields, rfl⟩⟩
  | null | bool _ | int _ | float _ => cases h

end Json

namespace Value

theorem isJoinedFields_iff {fields : Fields} :
    IsJoinedFields fields ↔ ∀ f ∈ fields, f.1.IsJoined ∧ f.2.IsJoined := by
  induction fields with
  | nil => simp [IsJoinedFields]
  | cons f r ih => simp [IsJoinedFields, ih, and_assoc]

mutual

theorem IsJoined.ordered : ∀ {v : Value}, v.IsJoined → v.ordered.IsJoined
  | .null, _ | .bool _, _ | .int _, _ | .float _, _ | .bytes _, _ => trivial
  | .text _, h => h
  | .list _, h | .tuple _, h => isJoinedList_ordered h
  | .object _, h => by
    have hordered := isJoinedFields_iff.mp (isJoinedFields_ordered h)
    exact isJoinedFields_iff.mpr fun f hf => hordered f (List.mem_mergeSort.mp hf)

theorem isJoinedList_ordered : ∀ {xs : List Value}, IsJoinedList xs →
    IsJoinedList (orderedList xs)
  | [], _ => trivial
  | _ :: _, h => ⟨h.1.ordered, isJoinedList_ordered h.2⟩

theorem isJoinedFields_ordered : ∀ {fields : Fields}, IsJoinedFields fields →
    IsJoinedFields (orderedFields fields)
  | [], _ => trivial
  | _ :: _, h => ⟨h.1, h.2.1.ordered, isJoinedFields_ordered h.2.2⟩

end

end Value

namespace Json

variable {f : Form}

open Value

mutual

/-- A value ends where its text ends, and its text determines it. -/
theorem chars_append_inj (hf : f.Transparent) : ∀ (v w : Value) (r s : List Letter), v.IsJson →
    w.IsJson → v.IsJoined → w.IsJoined → Ends r → Ends s → f.chars v ++ r = f.chars w ++ s →
      v = w ∧ r = s
  | .null, w, r, s, _, _, _, _, hr, hs, h =>
    scalar_append_inj hf.writes (by rfl) hr hs h
  | .bool _, w, r, s, _, _, _, _, hr, hs, h =>
    scalar_append_inj hf.writes (by rfl) hr hs h
  | .int _, w, r, s, _, _, _, _, hr, hs, h =>
    scalar_append_inj hf.writes (by rfl) hr hs h
  | .float _, w, r, s, _, _, _, _, hr, hs, h =>
    scalar_append_inj hf.writes (by rfl) hr hs h
  | .text a, w, r, s, _, hw, ha, hb, _, _, h => by
    obtain ⟨b, rfl⟩ := (exists_of_mark hw (mark_eq_of_append_eq hf.writes h).symm).1 rfl
    obtain ⟨rfl, hrest⟩ := stringText_append_inj (hf.legible ha) (hf.legible hb) h
    exact ⟨rfl, hrest⟩
  | .bytes _, _, _, _, hv, _, _, _, _, _, _ => hv.elim
  | .tuple _, _, _, _, hv, _, _, _, _, _, _ => hv.elim
  | .list xs, w, r, s, hv, hw, hxs, hys, _, _, h => by
    obtain ⟨ys, rfl⟩ := (exists_of_mark hw (mark_eq_of_append_eq hf.writes h).symm).2.1 rfl
    rw [chars_list, chars_list] at h
    obtain ⟨rfl, hrest⟩ := items_append_inj hf xs ys r s hv hw hxs hys
      (tails_of_commas (opens_listChars hf.writes xs) (opens_listChars hf.writes ys)
        (List.cons.inj h).2)
    exact ⟨rfl, hrest⟩
  | .object fields, w, r, s, hv, hw, hjoined, hjoined', _, _, h => by
    obtain ⟨gs, rfl⟩ := (exists_of_mark hw (mark_eq_of_append_eq hf.writes h).symm).2.2 rfl
    rw [chars_object hf.unsorted, chars_object hf.unsorted] at h
    obtain ⟨rfl, hrest⟩ := members_append_inj hf fields gs r s hv hw hjoined hjoined'
      (tails_of_commas (opens_memberTexts fields) (opens_memberTexts gs) (List.cons.inj h).2)
    exact ⟨rfl, hrest⟩

theorem items_append_inj (hf : f.Transparent) : ∀ (xs ys : List Value) (r s : List Letter),
    IsJsonList xs → IsJsonList ys → IsJoinedList xs → IsJoinedList ys →
      tails (f.listChars xs) ++ .char ']' :: r = tails (f.listChars ys) ++ .char ']' :: s →
        xs = ys ∧ r = s
  | [], [], r, s, _, _, _, _, h => ⟨rfl, (List.cons.inj h).2⟩
  | [], _ :: _, r, s, _, _, _, _, h => absurd (List.cons.inj h).1 (by decide)
  | _ :: _, [], r, s, _, _, _, _, h => absurd (List.cons.inj h).1 (by decide)
  | x :: xs, y :: ys, r, s, hx, hy, hxs, hys, h => by
    have hnext : f.chars x ++ (tails (f.listChars xs) ++ .char ']' :: r) =
        f.chars y ++ (tails (f.listChars ys) ++ .char ']' :: s) := by
      simpa [Form.listChars, tails] using h
    obtain ⟨rfl, hmore⟩ := chars_append_inj hf x y _ _ hx.1 hy.1 hxs.1 hys.1
      (ends_tails _ (Or.inl rfl) r) (ends_tails _ (Or.inl rfl) s) hnext
    obtain ⟨rfl, hrest⟩ := items_append_inj hf xs ys r s hx.2 hy.2 hxs.2 hys.2 hmore
    exact ⟨rfl, hrest⟩

theorem members_append_inj (hf : f.Transparent) : ∀ (fields gs : Fields) (r s : List Letter),
    IsJsonFields fields → IsJsonFields gs → IsJoinedFields fields → IsJoinedFields gs →
      tails (memberTexts f fields) ++ .char '\x7d' :: r =
          tails (memberTexts f gs) ++ .char '\x7d' :: s →
        fields = gs ∧ r = s
  | [], [], r, s, _, _, _, _, h => ⟨rfl, (List.cons.inj h).2⟩
  | [], _ :: _, r, s, _, _, _, _, h => absurd (List.cons.inj h).1 (by decide)
  | _ :: _, [], r, s, _, _, _, _, h => absurd (List.cons.inj h).1 (by decide)
  | (k, x) :: fields, (l, y) :: gs, r, s, hx, hy, hkx, hly, h => by
    have hname : f.stringText k ++
          (.char ':' :: (f.chars x ++ (tails (memberTexts f fields) ++ .char '\x7d' :: r))) =
        f.stringText l ++
          (.char ':' :: (f.chars y ++ (tails (memberTexts f gs) ++ .char '\x7d' :: s))) := by
      simpa [Form.fieldChars, memberTexts, tails] using h
    obtain ⟨rfl, hnext⟩ := stringText_append_inj (hf.legible hkx.1) (hf.legible hly.1) hname
    obtain ⟨rfl, hmore⟩ := chars_append_inj hf x y _ _ hx.1 hy.1 hkx.2.1 hly.2.1
      (ends_tails _ (Or.inr rfl) r) (ends_tails _ (Or.inr rfl) s) (List.cons.inj hnext).2
    obtain ⟨rfl, hrest⟩ := members_append_inj hf fields gs r s hx.2 hy.2 hkx.2.2 hly.2.2 hmore
    exact ⟨rfl, hrest⟩

end

/-! ### The order of fields -/


/-- The canonical form without sorting. -/
def plain : Form := { canonical with sorted := false }

theorem plain_transparent : plain.Transparent where
  legible := canonical_legible
  writes := fun x => ⟨(canonical_writes x).opens, (canonical_writes x).reads⟩
  unsorted := rfl

theorem fieldChars_eq_map (f : Form) (fields : Fields) :
    f.fieldChars fields = fields.map fun m => (m.1, f.chars m.2) := by
  induction fields with
  | nil => rfl
  | cons m fields ih => rw [Form.fieldChars, ih, List.map_cons]

theorem mergeSort_fieldChars (f : Form) (fields : Fields) :
    (f.fieldChars fields).mergeSort byName = f.fieldChars (fields.mergeSort byName) := by
  rw [fieldChars_eq_map, fieldChars_eq_map]
  exact (List.map_mergeSort (r := byName) (s := byName) (f := fun m => (m.1, f.chars m.2))
    fun _ _ _ _ => rfl).symm

mutual

theorem canonical_chars : ∀ v : Value, canonical.chars v = plain.chars v.ordered
  | .null | .bool _ | .int _ | .float _ | .text _ | .bytes _ => rfl
  | .list xs | .tuple xs => by
    rw [Value.ordered, Form.chars, Form.chars, canonical_listChars xs]
  | .object fields => by
    have hsorted : canonical.arrange (canonical.fieldChars fields) =
        plain.arrange (plain.fieldChars ((orderedFields fields).mergeSort byName)) := by
      rw [canonical_fieldChars fields, ← mergeSort_fieldChars]
      rfl
    rw [Value.ordered, Form.chars, Form.chars, hsorted]
    rfl

theorem canonical_listChars : ∀ xs : List Value,
    canonical.listChars xs = plain.listChars (orderedList xs)
  | [] => rfl
  | x :: xs => by
    rw [orderedList, Form.listChars, Form.listChars, canonical_chars x, canonical_listChars xs]

theorem canonical_fieldChars : ∀ fields : Fields,
    canonical.fieldChars fields = plain.fieldChars (orderedFields fields)
  | [] => rfl
  | (k, x) :: fields => by
    rw [orderedFields, Form.fieldChars, Form.fieldChars, canonical_chars x,
      canonical_fieldChars fields]

end

/-- The canonical text determines a JSON value up to the order of fields if its texts are joined. -/
theorem ordered_eq_of_canonical {v w : Value} (hv : v.IsJson) (hw : w.IsJson)
    (hv' : v.IsJoined) (hw' : w.IsJoined) (h : canonical.chars v = canonical.chars w) :
    v.ordered = w.ordered := by
  rw [canonical_chars, canonical_chars] at h
  have happend : plain.chars v.ordered ++ [] = plain.chars w.ordered ++ [] := by rw [h]
  exact (chars_append_inj plain_transparent _ _ [] [] hv.ordered hw.ordered hv'.ordered
    hw'.ordered ends_nil ends_nil happend).1

end Json

namespace Text.Utf8

theorem ofNat_inj {a b : Nat} (ha : a < 256) (hb : b < 256) (h : UInt8.ofNat a = UInt8.ofNat b) :
    a = b := by
  have hnat := congrArg UInt8.toNat h
  simpa [UInt8.toNat_ofNat', Nat.mod_eq_of_lt ha, Nat.mod_eq_of_lt hb] using hnat

def lead (n : Nat) : Nat :=
  if n < 0x80 then n
  else if n < 0x800 then 0xc0 + n / 64
  else if n < 0x10000 then 0xe0 + n / 4096
  else 0xf0 + n / 262144

theorem lead_lt {n : Nat} (hn : n < 0x110000) : lead n < 256 := by
  unfold lead
  split_ifs <;> omega

def follow (n : Nat) : List Nat :=
  if n < 0x80 then []
  else if n < 0x800 then [0x80 + n % 64]
  else if n < 0x10000 then [0x80 + n / 64 % 64, 0x80 + n % 64]
  else [0x80 + n / 4096 % 64, 0x80 + n / 64 % 64, 0x80 + n % 64]

theorem encodeLetter_eq (c : Letter) :
    encodeLetter c = UInt8.ofNat (lead c.toNat) :: (follow c.toNat).map UInt8.ofNat := by
  unfold encodeLetter lead follow
  dsimp only
  split_ifs <;> simp

theorem toNat_follow (n : Nat) :
    ((follow n).map UInt8.ofNat).map UInt8.toNat = follow n := by
  have hsmall : ∀ x ∈ follow n, x < 256 := by
    intro x hx
    unfold follow at hx
    split_ifs at hx <;> simp at hx <;> omega
  rw [List.map_map]
  conv_rhs => rw [← List.map_id (follow n)]
  refine List.map_congr_left fun x hx => ?_
  simp [Nat.mod_eq_of_lt (hsmall x hx)]

/-- The bytes of a character determine it and where they end. -/
theorem encodeLetter_append_inj {c d : Letter} {r s : List UInt8}
    (h : encodeLetter c ++ r = encodeLetter d ++ s) : c = d ∧ r = s := by
  have hc := c.toNat_lt
  have hd := d.toNat_lt
  rw [encodeLetter_eq, encodeLetter_eq] at h
  obtain ⟨hlead, hfollow⟩ := List.cons.inj h
  replace hlead := ofNat_inj (lead_lt hc) (lead_lt hd) hlead
  have hlength : (follow c.toNat).length = (follow d.toNat).length := by
    unfold lead at hlead
    unfold follow
    split_ifs at hlead ⊢ <;> first | rfl | omega
  obtain ⟨hbytes, hrest⟩ := List.append_inj hfollow (by simpa using hlength)
  have htail : follow c.toNat = follow d.toNat := by
    rw [← toNat_follow c.toNat, hbytes, toNat_follow]
  have hnat : c.toNat = d.toNat := by
    unfold lead at hlead
    unfold follow at htail
    split_ifs at hlead htail <;> simp at htail <;> omega
  exact ⟨Letter.toNat_inj.mp hnat, hrest⟩

theorem encode_injective {s t : Text} (h : encode s = encode t) : s = t := by
  have hlist (cs ds : List Letter) (h : cs.flatMap encodeLetter = ds.flatMap encodeLetter) :
      cs = ds := by
    induction cs generalizing ds with
    | nil =>
      cases ds with
      | nil => rfl
      | cons d ds => simp [encodeLetter_eq] at h
    | cons c cs ih =>
      cases ds with
      | nil => simp [encodeLetter_eq] at h
      | cons d ds =>
        rw [List.flatMap_cons, List.flatMap_cons] at h
        obtain ⟨rfl, hrest⟩ := encodeLetter_append_inj h
        rw [ih ds hrest]
  exact Text.toList_inj.mp (hlist _ _ h)

end Text.Utf8

namespace Cache

def digestInput (v : Value) : List UInt8 := Text.Utf8.encode (Json.canonical.render v)

theorem digest_eq (v : Value) : digest v = Digest.md5 (digestInput v) := rfl

/-- The digest input determines a JSON value up to the order of fields if its texts are joined. -/
theorem ordered_eq_of_digestInput {v w : Value} (hv : v.IsJson) (hw : w.IsJson)
    (hv' : v.IsJoined) (hw' : w.IsJoined) (h : digestInput v = digestInput w) :
    v.ordered = w.ordered := by
  have htext := Text.Utf8.encode_injective h
  exact Json.ordered_eq_of_canonical hv hw hv' hw' (Text.ofList.inj htext)

theorem length_md5 (bs : List UInt8) : (Digest.md5 bs).toList.length = 32 := by
  have hword (w : UInt32) : (Digest.wordHex w).length = 8 := by
    simp [Digest.wordHex, Digest.littleBytes, Text.hex]
  simp only [Digest.md5, String.toList_ofList, List.length_append, hword]

/-- Digests have one length, so a text in front of one can be told from it. -/
theorem append_md5_inj {s t : String} {a b : List UInt8}
    (h : s ++ Digest.md5 a = t ++ Digest.md5 b) : s = t ∧ Digest.md5 a = Digest.md5 b := by
  have hlist : s.toList ++ (Digest.md5 a).toList = t.toList ++ (Digest.md5 b).toList := by
    rw [← String.toList_append, h, String.toList_append]
  obtain ⟨hs, hdigest⟩ := List.append_inj' hlist (by rw [length_md5, length_md5])
  exact ⟨String.toList_inj.mp hs, String.toList_inj.mp hdigest⟩

end Cache

end Paging
