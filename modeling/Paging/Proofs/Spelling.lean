import Mathlib.Logic.Relation
import Paging.Paginator
import Paging.Proofs.NumberText
import Paging.Proofs.Stored

/-! Spellings of a request. A number may be sent as its text, a list of columns as one text, a
filter as JSON, and the parameters of a mapping in a query or a body. However these ways are
combined, the request asks for the same page. -/
namespace Paging

/-! ### Blanks -/

namespace Text

theorem eq_of_isBlankByte {b : UInt8} (h : isBlankByte b = true) :
    b = 9 ∨ b = 10 ∨ b = 11 ∨ b = 12 ∨ b = 13 ∨ b = 32 := by
  have hbounds : b.toNat = 32 ∨ 9 ≤ b.toNat ∧ b.toNat ≤ 13 := by
    simpa [isBlankByte, ← UInt8.toNat_inj, UInt8.le_iff_toNat_le] using h
  simp only [← UInt8.toNat_inj, UInt8.reduceToNat]
  omega

theorem isBlank_of_isBlankByte {b : UInt8} (h : isBlankByte b = true) :
    (b ≠ 0 ∧ b < 0x80) ∧ isBlank (Char.ofNat b.toNat) = true := by
  rcases eq_of_isBlankByte h with rfl | rfl | rfl | rfl | rfl | rfl <;> decide

namespace Encoding

theorem detect_blank {bs : List UInt8} (h : ∀ b ∈ bs, isBlankByte b = true) :
    detect bs = .utf8 := by
  match bs with
  | [] => rfl
  | a :: bs =>
    obtain ⟨ha, hbs⟩ := List.forall_mem_cons.mp h
    -- Behind a byte that is no mark nothing counts but the second byte and how many there are.
    rcases eq_of_isBlankByte ha with rfl | rfl | rfl | rfl | rfl | rfl
    all_goals
      match bs, hbs with
      | [], _ | [_, _], _ => rfl
      | [b], hbs => exact if_neg (isBlank_of_isBlankByte (hbs b List.mem_cons_self)).1.1
      | b :: _ :: _ :: _, hbs =>
        exact if_neg (isBlank_of_isBlankByte (hbs b List.mem_cons_self)).1.1

theorem decode8_blank {bs : List UInt8} (h : ∀ b ∈ bs, isBlankByte b = true) (fuel p : ℕ) :
    Gives (decode8 fuel p bs) fun cs => ∀ c ∈ cs, isBlank c = true := by
  induction fuel generalizing p bs with
  | zero => exact .ok nofun
  | succ fuel ih =>
    cases bs with
    | nil => exact .ok nofun
    | cons a bs =>
      obtain ⟨ha, hbs⟩ := List.forall_mem_cons.mp h
      obtain ⟨⟨-, hascii⟩, hblank⟩ := isBlank_of_isBlankByte ha
      have hne : a ≠ 0xed := by
        rintro rfl
        exact absurd hascii (by decide)
      have hhalf : half? (a :: bs) = none := by
        match bs with
        | [] | [_] => rfl
        | _ :: _ :: _ => rw [half?, if_neg fun hhalf => hne hhalf.1]
      have hstep : Utf8.step a bs = .char (Char.ofNat a.toNat) 1 := by simp [Utf8.step, hascii]
      rw [decode8, hhalf]
      simp only [hstep, List.drop_succ_cons, List.drop_zero]
      have hmore := ih hbs (p + 1)
      cases hrest : decode8 fuel (p + 1) bs with
      | error e => exact .error e
      | ok cs => exact .ok (List.forall_mem_cons.mpr ⟨hblank, hmore cs hrest⟩)

theorem decode_blank {bs : List UInt8} (h : bs.all isBlankByte = true) :
    Gives ((detect bs).decode bs) fun s => allBlank s = true := by
  have hblank := List.all_eq_true.mp h
  have hchars := decode8_blank hblank bs.length 0
  rw [detect_blank hblank, decode]
  cases hcs : decode8 bs.length 0 bs with
  | error e => exact .error e
  | ok cs => exact .ok (List.all_eq_true.mpr (hchars cs hcs))

end Encoding

end Text

namespace Json

open Text

theorem readValue_blank {text : List Letter} (h : ∀ c ∈ text, isBlank c = true) (fuel room p : ℕ) :
    ∃ e, readValue fuel room ⟨text, p⟩ = .error e := by
  cases fuel with
  | zero => exact ⟨_, rfl⟩
  | succ fuel =>
    cases text with
    | nil => cases room <;> exact ⟨_, rfl⟩
    | cons c r =>
      have hblank := h c List.mem_cons_self
      have hne {d : Letter} (hd : isBlank d = false) : c ≠ d := by
        rintro rfl
        exact absurd (hblank.symm.trans hd) (by decide)
      have hbeq {d : Letter} (hd : isBlank d = false) : (d == c) = false := by
        simpa using (hne hd).symm
      have hword : words.find? (fun w => w.1.isPrefixOf (c :: r)) = none := by
        simp [words, List.isPrefixOf, hbeq (d := 'n') rfl, hbeq (d := 't') rfl,
          hbeq (d := 'f') rfl, hbeq (d := 'N') rfl, hbeq (d := 'I') rfl, hbeq (d := '-') rfl]
      have hdigit : c.isDigit = false := by
        by_contra hdigit
        cases c with
        | char c =>
          have hvalue := Decimal.digitValue?_of_isDigit (eq_true_of_ne_false hdigit)
          exact absurd (hblank.symm.trans (isBlank_of_digitValue? hvalue)) (by decide)
        | half n => exact hdigit rfl
      have hwhole : wholePart (c :: r) = [] := by
        rw [wholePart.eq_2 _ fun _ hzero => hne rfl (List.cons.inj hzero).1]
        simp [hdigit]
      have hsign : takeSign ⟨c :: r, p⟩ = (false, ⟨c :: r, p⟩) := by
        rw [takeSign]
        split
        · rename_i hminus
          exact absurd (List.cons.inj hminus).1 (hne rfl)
        · rfl
      refine ⟨.malformed .value p, ?_⟩
      rw [readValue_scalar fuel room (hne rfl) (hne rfl) (hne rfl), readScalar, hword]
      simp [readNumber, hsign, hwhole, fail]

theorem readText_blank {s : Text} (h : allBlank s = true) (v : Value) : readText s ≠ .ok v := by
  have hblank : ∀ c ∈ s.toList, isBlank c = true := by simpa [allBlank] using h
  obtain ⟨e, he⟩ := readValue_blank
    (fun c hc => hblank c (List.mem_of_mem_drop hc)) (2 * s.toList.length + 2) clientRoom
    (0 + (s.toList.takeWhile isSpace).length)
  rw [readText, read, skipSpaces, Cursor.skip, he]
  intro h
  cases h

theorem readInput_ne_blank {v w : Value} (h : readInput v = .ok w) :
    (∃ s, v = .text s ∧ allBlank s = false) ∨
      ∃ bs, v = .bytes bs ∧ bs.all isBlankByte = false := by
  cases v with
  | text s =>
    refine .inl ⟨s, rfl, ?_⟩
    by_contra hblank
    rw [readInput] at h
    split at h
    · cases h
    · exact readText_blank (by simpa using hblank) w h
  | bytes bs =>
    refine .inr ⟨bs, rfl, ?_⟩
    by_contra hblank
    rw [readInput] at h
    split at h
    · rename_i s hs
      exact readText_blank (Encoding.decode_blank (by simpa using hblank) s hs) w h
    · cases h
  | _ => cases h

end Json

/-! ### One parameter -/

theorem Text.splitChars_eq_splitOn (sep : Letter) (s : List Letter) :
    splitChars sep s = s.splitOn sep := by
  induction s with
  | nil => rw [splitChars, List.splitOn_nil]
  | cons c s ih =>
    obtain ⟨w, ws, hsplit⟩ := List.exists_cons_of_ne_nil (List.splitOnP_ne_nil (· == sep) s)
    rw [List.splitOn] at ih ⊢
    rw [splitChars, ih, List.splitOnP_cons_eq_if_modifyHead, hsplit]
    by_cases hc : c = sep
    · simp [hc]
    · simp [hc]

/-- Texts without a comma are what the text that joins them by commas is split into. -/
theorem Text.split_intercalate {ss : List Text} (hne : ss ≠ [])
    (h : ∀ s ∈ ss, .char ',' ∉ s.toList) :
    split ',' (("," : Text).intercalate ss) = ss := by
  have hchars : ∀ cs ∈ ss.map Text.toList, .char ',' ∉ cs := by simpa using h
  have hne' : ss.map Text.toList ≠ [] := by simpa using hne
  have hcomma : ("," : Text).toList = [.char ','] := rfl
  rw [split, splitChars_eq_splitOn, intercalate, Text.toList_ofList, hcomma,
    List.splitOn_intercalate (.char ',') hchars hne', List.map_map]
  exact List.map_id ss

theorem SortKey.ofValue_texts (ss : List Text) (order : Value) :
    ofValue (.list (ss.map .text)) order = ss.filterMap (ofItem? (Direction.ofOrder order)) := by
  simp [ofValue, Value.elements?, List.filterMap_map]

theorem SortKey.ofValue_join {ss : List Text} (h : ∀ s ∈ ss, .char ',' ∉ s.toList) (order : Value) :
    ofValue (.text (("," : Text).intercalate ss)) order = ofValue (.list (ss.map .text)) order := by
  rw [ofValue_texts]
  by_cases hss : ss = []
  · subst hss
    -- The empty text has one entry, of which no column is left.
    rfl
  · rw [ofValue, Text.split_intercalate hss h]

theorem FieldList.ofValue_join (ss : List Text) :
    ofValue (.text (("," : Text).intercalate ss)) = ofValue (.list (ss.map .text)) := by
  cases ss with
  | nil => rfl
  | cons s ss =>
    have hsome (s : Text) : some (Value.text s).display = some s := rfl
    simp [ofValue, Value.elements?, List.filterMap_map, hsome]

theorem Filter.ofInput_of_readInput (cfg : Config) {v : Value} {xs : List Value}
    (h : Json.readInput v = .ok (.list xs)) : ofInput cfg v = ofInput cfg (.list xs) := by
  have hdecode : decode v = .ok (.list xs) := by rw [decode, h]
  have hclient : clientValue v = .list xs := by
    obtain ⟨s, rfl, hs⟩ | ⟨bs, rfl, hbs⟩ := Json.readInput_ne_blank h
    · simp [clientValue, isBlankInput, hs, hdecode, Except.toOption]
    · simp [clientValue, isBlankInput, hbs, hdecode, Except.toOption]
  have hlist : clientValue (.list xs) = .list xs := rfl
  rw [ofInput_eq, ofInput_eq, hclient, hlist]

theorem Text.isBlank_of_mem_toString {n : ℤ} {c : Letter}
    (hc : c ∈ letters (toString n).toList) : isBlank c = false := by
  obtain ⟨d, hd, rfl⟩ := List.mem_map.mp hc
  rw [Json.toList_toString_int, Json.signText] at hd
  rcases List.mem_append.mp hd with hd | hd
  · split at hd
    · rw [List.mem_singleton.mp hd]
      rfl
    · cases hd
  · exact isBlank_of_digitValue? (Decimal.digitValue?_of_isDigit (Json.isDigits_toDigits _ d hd))

theorem Text.strip_around {front back : Text} (hfront : allBlank front = true)
    (hback : allBlank back = true) (n : ℤ) :
    strip (front ++ toString n ++ back) = toString n := by
  have hne : letters (toString n).toList ≠ [] := by
    rw [Json.toList_toString_int, letters_append]
    refine List.append_ne_nil_of_right_ne_nil _ ?_
    simp [Nat.toDigits_ne_nil]
  have htrim := trimBy_append (List.all_eq_true.mp hfront) (List.all_eq_true.mp hback) hne
    (fun c hc => isBlank_of_mem_toString (List.mem_of_mem_head? hc))
    (fun c hc => isBlank_of_mem_toString (List.mem_of_mem_getLast? hc))
  rw [strip, Text.toList_append, Text.toList_append, Text.toList_ofString, htrim]
  rfl

theorem Descriptor.positive?_text {front back : Text} (hfront : Text.allBlank front = true)
    (hback : Text.allBlank back = true) (n : ℤ) :
    positive? (.text (front ++ toString n ++ back)) = positive? (.int n) := by
  have htext : rawNumber? (.text (front ++ toString n ++ back)) =
      if (Nat.toDigits 10 n.natAbs).length ≤ Decimal.maxDigits then some n else none := by
    rw [rawNumber?, textNumber?, Text.strip_around hfront hback, Decimal.readInt?_toString]
  have hnumber : rawNumber? (.int n) = some n := rfl
  rw [positive?, positive?, number?, number?, htext, hnumber]
  split
  · rfl
  · rename_i hlong
    -- An integer whose text is too long to be read is none that a database takes.
    have hmax : maxNumber.natAbs < 10 ^ 19 := by decide
    have hlarge : ¬ n.natAbs ≤ maxNumber.natAbs := fun hn => hlong <|
      ((Nat.length_toDigits_le_iff (by decide) (by decide)).mpr (hn.trans_lt hmax)).trans
        (by decide)
    rw [Option.filter_none, Option.filter_some, if_neg (by simpa using hlarge)]

theorem Json.readInput_stored {v : Value} (hv : v.IsStorable) {s : Text}
    (hs : s.toList = stored.chars v) (hmark : s.toList.head? ≠ some ('\ufeff' : Letter))
    (hroom : outcome clientRoom v = .ok v) : readInput (.text s) = .ok v := by
  rw [readInput, if_neg hmark, readText, hs, read_stored hv, hroom]
  rfl

/-! ### Requests -/

/-- A parameter written in another way: a number as its text with blanks around it, a list of
columns as the text that joins them by commas, a filter as a JSON text or its bytes. -/
inductive Parameters.Respells (name : Text) : Value → Value → Prop
  | number {front back : Text} (hname : name = "page" ∨ name = "size") (n : ℤ)
      (hfront : Text.allBlank front = true) (hback : Text.allBlank back = true) :
      Respells name (.int n) (.text (front ++ toString n ++ back))
  | sort {ss : List Text} (hname : name = "sort") (h : ∀ s ∈ ss, .char ',' ∉ s.toList) :
      Respells name (.list (ss.map .text)) (.text (("," : Text).intercalate ss))
  | fields (hname : name = "fields") (ss : List Text) :
      Respells name (.list (ss.map .text)) (.text (("," : Text).intercalate ss))
  | filters {xs : List Value} {v : Value} (hname : name = "filters")
      (h : Json.readInput v = .ok (.list xs)) : Respells name (.list xs) v

inductive Request.Carries : Request → Fields → Prop
  | mapping (fields : Fields) : Carries (.mapping fields) fields
  | query {r : Http.Request} (hget : r.isPost = false) : Carries (.http r) r.query
  | body {r : Http.Request} {fields : Fields} (hpost : r.isPost = true)
      (hbody : Json.readInput r.body = .ok (.object fields)) : Carries (.http r) fields

/-- One rewriting of a request: its parameters are sent in another way, or one of them is written in
another way. -/
inductive Request.Rewrites : Request → Request → Prop
  | resend {r r' : Request} {fields : Fields} (hr : r.Carries fields) (hr' : r'.Carries fields) :
      Rewrites r r'
  | respell {r r' : Request} {before after : Fields} {name : Text} {v w : Value}
      (hr : r.Carries (before ++ (name, v) :: after))
      (hr' : r'.Carries (before ++ (name, w) :: after)) (h : Parameters.Respells name v w) :
      Rewrites r r'

theorem Request.Carries.fields_eq {r : Request} {fields : Fields} (h : r.Carries fields) :
    r.fields = fields := by
  cases h with
  | mapping => rfl
  | query hget => rw [Request.fields, Http.Request.parameters, hget, if_neg (by simp)]
  | body hpost hbody =>
    rename_i r
    have hparameters : Http.Request.bodyParameters r.body = .ok fields := by
      obtain ⟨s, hs, hblank⟩ | ⟨bs, hbs, hblank⟩ := Json.readInput_ne_blank hbody
      · simp [Http.Request.bodyParameters, Http.Request.isBlankBody, hs, hblank, hs ▸ hbody]
      · simp [Http.Request.bodyParameters, Http.Request.isBlankBody, hbs, hblank, hbs ▸ hbody]
    rw [Request.fields, Http.Request.parameters, hpost, if_pos rfl, hparameters]
    rfl

namespace Parameters.Respells

variable {name : Text} {v w : Value}

theorem positive?_eq (h : Respells name v w) (hname : name = "page" ∨ name = "size") :
    Descriptor.positive? v = Descriptor.positive? w := by
  cases h with
  | number _ n hfront hback => exact (Descriptor.positive?_text hfront hback n).symm
  | sort hother | fields hother | filters hother =>
    subst hother
    exact absurd hname (by decide)

theorem sortKeys_eq (h : Respells "sort" v w) (order : Value) :
    SortKey.ofValue v order = SortKey.ofValue w order := by
  cases h with
  | sort _ hcommas => exact (SortKey.ofValue_join hcommas order).symm
  | number hother | fields hother | filters hother => exact absurd hother (by decide)

theorem fieldList_eq (h : Respells "fields" v w) : FieldList.ofValue v = FieldList.ofValue w := by
  cases h with
  | fields _ ss => exact (FieldList.ofValue_join ss).symm
  | number hother | sort hother | filters hother => exact absurd hother (by decide)

theorem filter_eq (h : Respells "filters" v w) (cfg : Config) :
    Filter.ofInput cfg v = Filter.ofInput cfg w := by
  cases h with
  | filters _ hread => exact (Filter.ofInput_of_readInput cfg hread).symm
  | number hother | sort hother | fields hother => exact absurd hother (by decide)

theorem not_order (h : Respells "order" v w) : False := by
  cases h with
  | number hother | sort hother | fields hother | filters hother => exact absurd hother (by decide)

theorem valueOf (h : Respells name v w) (before after : Fields) (name' : Text) :
    let value := Parameters.valueOf (before ++ (name, v) :: after) name'
    let value' := Parameters.valueOf (before ++ (name, w) :: after) name'
    value = value' ∨ Respells name' value value' := by
  simp only [Parameters.valueOf, Fields.get?, List.lookup_append, List.lookup_cons]
  cases before.lookup name' with
  | some u => exact .inl rfl
  | none =>
    by_cases hname : name' = name
    · subst hname
      simpa using .inr h
    · have hne : (name' == name) = false := by simpa using hname
      simp [hne]

end Parameters.Respells

theorem Descriptor.ofParameters_respell {name : Text} {v w : Value}
    (h : Parameters.Respells name v w) {cfg : Config} (hcustom : cfg.customParams = false)
    (before after : Fields) :
    ofParameters cfg (.ofFields cfg (before ++ (name, v) :: after)) =
      ofParameters cfg (.ofFields cfg (before ++ (name, w) :: after)) := by
  have hvalue := h.valueOf before after
  simp only at hvalue
  have hpage := (hvalue "page").elim (congrArg positive?) (·.positive?_eq (.inl rfl))
  have hsize := (hvalue "size").elim (congrArg positive?) (·.positive?_eq (.inr rfl))
  have horder := (hvalue "order").resolve_right fun h => h.not_order
  have hsorts (order : Value) := (hvalue "sort").elim (congrArg fun v => SortKey.ofValue v order)
    (·.sortKeys_eq order)
  have hfields := (hvalue "fields").elim (congrArg FieldList.ofValue) (·.fieldList_eq)
  have hfilter := (hvalue "filters").elim (congrArg (Filter.ofInput cfg)) (·.filter_eq cfg)
  simp [ofParameters, Parameters.ofFields, hcustom, sizeOf, pageOf, hpage, hsize, horder, hsorts,
    hfields, hfilter]

theorem Descriptor.ofRequest_rewrites {cfg : Config} (hcustom : cfg.customParams = false)
    {r r' : Request} (h : r.Rewrites r') : ofRequest cfg r = ofRequest cfg r' := by
  cases h with
  | resend hr hr' =>
    rw [ofRequest, ofRequest, Request.parameters, Request.parameters, hr.fields_eq, hr'.fields_eq]
  | respell hr hr' h =>
    rw [ofRequest, ofRequest, Request.parameters, Request.parameters, hr.fields_eq, hr'.fields_eq]
    exact ofParameters_respell h hcustom _ _

/-- Equivalent spellings are one request. Where parameters have their own names, requests that come
of each other by any rewritings have the same descriptor, the same compiled query and the same key
in the cache. -/
theorem spellings_agree {cfg : Config} (hcustom : cfg.customParams = false) {r r' : Request}
    (h : Relation.EqvGen Request.Rewrites r r') :
    let d := Descriptor.ofRequest cfg r
    let d' := Descriptor.ofRequest cfg r'
    d = d' ∧ Query.ofDescriptor cfg d = Query.ofDescriptor cfg d' ∧
      ∀ label allowed,
        Cache.pageKey label d (FieldList.select d.fields allowed cfg.fieldSelector) =
          Cache.pageKey label d' (FieldList.select d'.fields allowed cfg.fieldSelector) := by
  intro d d'
  have hd : d = d' := by
    induction h with
    | rel r r' h => exact Descriptor.ofRequest_rewrites hcustom h
    | refl => rfl
    | symm r r' _ ih => exact ih.symm
    | trans r s r' _ _ ih ih' => exact ih.trans ih'
  rw [hd]
  exact ⟨rfl, rfl, fun _ _ => rfl⟩

def listed : Fields :=
  [("page", .int 2), ("sort", .list [.text "-id", .text " name"]), ("fields", .list []),
    ("filters", .list [.text "age", .int 18])]

def typed : Fields :=
  [("page", .text "\n2 "), ("sort", .text "-id, name"), ("fields", .text ""),
    ("filters", .text "[\"age\",18]")]

def posted : Text :=
  "\x7b\"page\":2,\"sort\":[\"-id\",\" name\"],\"fields\":[],\"filters\":[\"age\",18]\x7d"

theorem readInput_posted : Json.readInput (.text posted) = .ok (.object listed) := by
  have hstorable : (Value.object listed).IsStorable := by
    refine ⟨by decide, ?_⟩
    simp [listed, Value.IsStorableFields, Value.IsStorable, Value.IsStorableList]
  exact Json.readInput_stored hstorable (by decide +kernel) (by decide +kernel) rfl

/-- A query and a body with the same parameters in different ways. -/
theorem spellings_agree_typed :
    ({} : Config).customParams = false ∧
      Descriptor.ofRequest {} (.http { method := some "post", body := .text posted }) =
        Descriptor.ofRequest {} (.http { query := typed, body := .text "[" }) := by
  have hstorable : (Value.list [.text "age", .int 18]).IsStorable := ⟨trivial, trivial, trivial⟩
  have hfilter : Json.readInput (.text "[\"age\",18]") = .ok (.list [.text "age", .int 18]) :=
    Json.readInput_stored hstorable (by decide +kernel) (by decide +kernel) rfl
  have hposted : Request.Rewrites (.http { method := some "post", body := .text posted })
      (.mapping listed) := .resend (.body (by decide) readInput_posted) (.mapping _)
  have hquery : Request.Rewrites (.mapping typed) (.http { query := typed, body := .text "[" }) :=
    .resend (.mapping _) (.query (by decide))
  -- In between one parameter after the other becomes a text.
  have hstep (before after : Fields) {name : Text} {v w : Value}
      (h : Parameters.Respells name v w) : Relation.EqvGen Request.Rewrites
        (.mapping (before ++ (name, v) :: after)) (.mapping (before ++ (name, w) :: after)) :=
    .rel _ _ (.respell (.mapping _) (.mapping _) h)
  have htwo : Parameters.Respells "page" (.int 2) (.text ("\n" ++ toString (2 : ℤ) ++ " ")) :=
    .number (.inl rfl) 2 (by decide) (by decide)
  have hcolumns : ∀ s ∈ (["-id", " name"] : List Text), .char ',' ∉ s.toList := by decide
  have hpage := hstep [] (listed.drop 1) htwo
  have hsort := hstep (typed.take 1) (listed.drop 2) (.sort rfl hcolumns)
  have hfields := hstep (typed.take 2) (listed.drop 3) (.fields rfl [])
  have hfilters := hstep (typed.take 3) [] (.filters rfl hfilter)
  have htyped : Relation.EqvGen Request.Rewrites (.mapping listed) (.mapping typed) :=
    hpage.trans _ _ _ (hsort.trans _ _ _ (hfields.trans _ _ _ hfilters))
  exact ⟨rfl, (spellings_agree rfl
    (.trans _ _ _ (.rel _ _ hposted) (htyped.trans _ _ _ (.rel _ _ hquery)))).1⟩

end Paging
