import Paging.Proofs.CanonicalText

/-! Keys of pages. Everything that a request asks for can be told from what its key is
computed from, so no two requests share a key unless the digest collides or they differ in
the order of fields alone. -/
namespace Paging

open Value

/-! ### Filters as values -/

namespace Filter

theorem nodup_comparison (c : Comparison) :
    (([("type", .text "comparison"), ("column", .text c.column), ("operator", .text c.operator),
      ("value", c.value)] : Fields) ++
      (if c.suffix.isEmpty then [] else [("value_suffix", .text c.suffix)] : Fields)
        |>.map Prod.fst).Nodup := by
  split <;> simp

def member? (name : Text) : Filter → Option Value
  | f => match f.toValue with
    | .object fields => (fields.lookup name).map Value.ordered
    | _ => none

theorem member?_eq {f g : Filter} (h : f.toValue.ordered = g.toValue.ordered) (name : Text) :
    f.member? name = g.member? name := by
  have hobject (f : Filter) :
      ∃ fields, f.toValue = .object fields ∧ (fields.map Prod.fst).Nodup := by
    cases f with
    | comparison c => exact ⟨_, rfl, nodup_comparison c⟩
    | connector symbol => exact ⟨_, rfl, by simp⟩
    | group children => exact ⟨_, rfl, by simp⟩
  obtain ⟨fields, hf, hnodup⟩ := hobject f
  obtain ⟨gs, hg, -⟩ := hobject g
  rw [hf, hg] at h
  rw [member?, member?, hf, hg]
  exact lookup_of_ordered_eq hnodup h name

def kind : Filter → Text
  | .comparison _ => "comparison"
  | .connector _ => "operator"
  | .group _ => "group"

theorem kind_eq {f g : Filter} (h : f.toValue.ordered = g.toValue.ordered) : f.kind = g.kind := by
  have hkind (f : Filter) : f.member? "type" = some (.text f.kind) := by
    cases f <;> rfl
  have hmember := member?_eq h "type"
  rw [hkind, hkind] at hmember
  exact Value.text.inj (Option.some.inj hmember)

theorem member?_comparison (c : Comparison) :
    (comparison c).member? "column" = some (.text c.column) ∧
      (comparison c).member? "operator" = some (.text c.operator) ∧
      (comparison c).member? "value" = some c.value.ordered ∧
      (comparison c).member? "value_suffix" =
        if c.suffix.isEmpty then none else some (.text c.suffix) := by
  refine ⟨rfl, rfl, rfl, ?_⟩
  simp only [member?, toValue]
  split <;> rfl

theorem comparison_eq {c c' : Comparison}
    (h : (comparison c).toValue.ordered = (comparison c').toValue.ordered) :
    c.ordered = c'.ordered := by
  obtain ⟨hcolumn, hoperator, hvalue, hsuffix⟩ := member?_comparison c
  obtain ⟨hcolumn', hoperator', hvalue', hsuffix'⟩ := member?_comparison c'
  rw [member?_eq h, hcolumn'] at hcolumn
  rw [member?_eq h, hoperator'] at hoperator
  rw [member?_eq h, hvalue'] at hvalue
  rw [member?_eq h, hsuffix'] at hsuffix
  obtain ⟨column, operator, value, suffix⟩ := c
  obtain ⟨column', operator', value', suffix'⟩ := c'
  obtain rfl : column' = column := by simpa using hcolumn
  obtain rfl : operator' = operator := by simpa using hoperator
  have hvalues : value'.ordered = value.ordered := Option.some.inj hvalue
  obtain rfl : suffix' = suffix := by
    dsimp only at hsuffix
    by_cases h' : suffix' = ""
    · by_cases h : suffix = ""
      · rw [h', h]
      · simp [h', h] at hsuffix
    · by_cases h : suffix = ""
      · simp [h', h] at hsuffix
      · simpa [h', h] using hsuffix
  simp only [Comparison.ordered, hvalues]

mutual

theorem ordered_eq_of_toValue : ∀ f g : Filter, f.toValue.ordered = g.toValue.ordered →
    f.ordered = g.ordered
  | .comparison c, .comparison c', h => congrArg comparison (comparison_eq h)
  | .connector s, .connector t, h => by
    have hsymbol := member?_eq h "symbol"
    exact congrArg connector (Value.text.inj (Option.some.inj hsymbol))
  | .group fs, .group gs, h => by
    have hchildren := member?_eq h "children"
    exact congrArg group (orderedList_eq_of_toValues fs gs
      (Value.list.inj (Option.some.inj hchildren)))
  | .comparison _, .connector _, h | .comparison _, .group _, h | .connector _, .comparison _, h
  | .connector _, .group _, h | .group _, .comparison _, h | .group _, .connector _, h =>
    absurd (kind_eq h) (by simp [kind])

theorem orderedList_eq_of_toValues : ∀ fs gs : List Filter,
    Value.orderedList (toValues fs) = Value.orderedList (toValues gs) →
      orderedList fs = orderedList gs
  | [], [], _ => rfl
  | [], _ :: _, h | _ :: _, [], h => by cases h
  | f :: fs, g :: gs, h => by
    obtain ⟨hf, hfs⟩ := List.cons.inj h
    rw [orderedList, orderedList, ordered_eq_of_toValue f g hf,
      orderedList_eq_of_toValues fs gs hfs]

end

mutual

theorem toValue_congr : ∀ f g : Filter, f.ordered = g.ordered →
    f.toValue.ordered = g.toValue.ordered
  | .comparison c, .comparison c', h => by
    obtain ⟨column, operator, value, suffix⟩ := c
    obtain ⟨column', operator', value', suffix'⟩ := c'
    simp only [ordered, Comparison.ordered, comparison.injEq, Comparison.mk.injEq] at h
    obtain ⟨rfl, rfl, hvalue, rfl⟩ := h
    simp only [toValue, Value.ordered, List.cons_append, List.nil_append, orderedFields, hvalue]
  | .connector s, .connector t, h => by rw [connector.inj h]
  | .group fs, .group gs, h => by
    have hchildren := toValues_congr fs gs (group.inj h)
    simp only [toValue, Value.ordered, orderedFields, hchildren]
  | .comparison _, .connector _, h | .comparison _, .group _, h | .connector _, .comparison _, h
  | .connector _, .group _, h | .group _, .comparison _, h | .group _, .connector _, h => by cases h

theorem toValues_congr : ∀ fs gs : List Filter, orderedList fs = orderedList gs →
    Value.orderedList (toValues fs) = Value.orderedList (toValues gs)
  | [], [], _ => rfl
  | [], _ :: _, h | _ :: _, [], h => by cases h
  | f :: fs, g :: gs, h => by
    obtain ⟨hf, hfs⟩ := List.cons.inj h
    rw [toValues, toValues, Value.orderedList, Value.orderedList, toValue_congr f g hf,
      toValues_congr fs gs hfs]

end

mutual

theorem IsJson.toValue : ∀ {f : Filter}, f.IsJson → f.toValue.IsJson
  | .comparison c, h => by
    have hvalue : c.value.IsJson := h c List.mem_cons_self
    rw [Filter.toValue]
    split
    · exact ⟨trivial, trivial, trivial, hvalue, trivial⟩
    · exact ⟨trivial, trivial, trivial, hvalue, trivial, trivial⟩
  | .connector _, _ => ⟨trivial, trivial, trivial⟩
  | .group children, h => ⟨trivial, isJsonList_toValues children h, trivial⟩

theorem isJsonList_toValues : ∀ fs : List Filter, (∀ c ∈ comparisonsOf fs, c.value.IsJson) →
    IsJsonList (toValues fs)
  | [], _ => trivial
  | f :: fs, h =>
    ⟨IsJson.toValue (f := f) fun c hc => h c (List.mem_append_left _ hc),
      isJsonList_toValues fs fun c hc => h c (List.mem_append_right _ hc)⟩

end

end Filter

/-! ### Payloads -/

theorem Direction.text_injective {a b : Direction} (h : a.text = b.text) : a = b := by
  cases a <;> cases b <;> first | rfl | simp [text] at h

theorem SortKey.toValue_injective {a b : SortKey} (h : a.toValue.ordered = b.toValue.ordered) :
    a = b := by
  have hmember := lookup_of_ordered_eq (f := [("column", .text a.column),
    ("direction", .text a.direction.text)]) (by simp) h
  have hcolumn : a.column = b.column := Value.text.inj (Option.some.inj (hmember "column"))
  have hdirection : a.direction.text = b.direction.text :=
    Value.text.inj (Option.some.inj (hmember "direction"))
  obtain ⟨column, direction⟩ := a
  obtain ⟨column', direction'⟩ := b
  obtain rfl : column = column' := hcolumn
  obtain rfl : direction = direction' := Direction.text_injective hdirection
  rfl

namespace Cache

theorem pagePayload_inj {d d' : Descriptor} {selected selected' : List Text}
    (h : (pagePayload d selected).ordered = (pagePayload d' selected').ordered) :
    d.ordered = d'.ordered ∧ selected = selected' := by
  have hmember := lookup_of_ordered_eq (f := d.toFields ++ _) (by simp [Descriptor.toFields]) h
  have htexts {xs ys : List Text} (h : (Value.list (xs.map .text)).ordered =
      (Value.list (ys.map .text)).ordered) : xs = ys := by
    rw [Value.ordered, Value.ordered, orderedList_eq_map, orderedList_eq_map, List.map_map,
      List.map_map] at h
    exact List.map_injective_iff.mpr (fun a b hab => Value.text.inj hab) (Value.list.inj h)
  have hpage : d.page = d'.page := Value.int.inj (Option.some.inj (hmember "page"))
  have hsize : d.size = d'.size := Value.int.inj (Option.some.inj (hmember "size"))
  have hsorts : d.sorts = d'.sorts := by
    have hlist := Value.list.inj (Option.some.inj (hmember "sorts"))
    rw [orderedList_eq_map, orderedList_eq_map, List.map_map, List.map_map] at hlist
    exact List.map_injective_iff.mpr (fun a b => SortKey.toValue_injective) hlist
  have hfields : d.fields = d'.fields := htexts (Option.some.inj (hmember "fields"))
  have hfilter : d.filter.ordered = d'.filter.ordered :=
    Filter.ordered_eq_of_toValue _ _ (Option.some.inj (hmember "filters"))
  have hselected : selected = selected' := htexts (Option.some.inj (hmember "selected"))
  refine ⟨?_, hselected⟩
  rw [Descriptor.ordered, Descriptor.ordered, hpage, hsize, hsorts, hfields, hfilter]

theorem isJsonList_texts (xs : List Text) : IsJsonList (xs.map .text) :=
  isJsonList_iff.mpr fun x hx => by
    obtain ⟨t, -, rfl⟩ := List.mem_map.mp hx
    trivial

theorem isJson_pagePayload {d : Descriptor} (hd : d.filter.IsJson) (selected : List Text) :
    (pagePayload d selected).IsJson := by
  have hsorts : IsJsonList (d.sorts.map SortKey.toValue) :=
    isJsonList_iff.mpr fun x hx => by
      obtain ⟨k, -, rfl⟩ := List.mem_map.mp hx
      exact ⟨trivial, trivial, trivial⟩
  exact ⟨trivial, trivial, hsorts, isJsonList_texts _, hd.toValue, isJsonList_texts _, trivial⟩

/-- The key of a page determines the label and, unless the digest collides, the request up to
the order of fields. -/
theorem pageKey_inj {d d' : Descriptor} (hd : d.filter.IsJson) (hd' : d'.filter.IsJson)
    {selected selected' : List Text} {label label' : String} (hlabel : label ≠ "")
    (hlabel' : label' ≠ "") (hjoined : (pagePayload d selected).IsJoined)
    (hjoined' : (pagePayload d' selected').IsJoined)
    (hdigest : Digest.md5 (digestInput (pagePayload d selected)) =
        Digest.md5 (digestInput (pagePayload d' selected')) →
      digestInput (pagePayload d selected) = digestInput (pagePayload d' selected'))
    (hkey : pageKey label d selected = pageKey label' d' selected') :
    label = label' ∧ d.ordered = d'.ordered ∧ selected = selected' := by
  have hempty : label.isEmpty = false := by simpa using hlabel
  have hempty' : label'.isEmpty = false := by simpa using hlabel'
  simp only [pageKey, hempty, hempty', Bool.false_eq_true, if_false, digest_eq] at hkey
  obtain ⟨rfl, hmd5⟩ := append_md5_inj hkey
  have hordered := ordered_eq_of_digestInput (isJson_pagePayload hd selected)
    (isJson_pagePayload hd' selected') hjoined hjoined' (hdigest hmd5)
  exact ⟨rfl, pagePayload_inj hordered⟩

/-- Two pages share a key only if they stand under one label and all that their requests ask for
is the same, down to the kind of every value and up to the order of fields; then their requests
compile to one query under any settings. The requests hold no split pair, and the digest has to
tell the two inputs apart. -/
theorem pageKey_separates (cfg cfg' : Config) (r r' : Request) (hr : r.IsJson) (hr' : r'.IsJson)
    (selected selected' : List Text) (label label' : String) (hlabel : label ≠ "")
    (hlabel' : label' ≠ "") :
    let d := Descriptor.ofRequest cfg r
    let d' := Descriptor.ofRequest cfg' r'
    let input := digestInput (pagePayload d selected)
    let input' := digestInput (pagePayload d' selected')
    (pagePayload d selected).IsJoined → (pagePayload d' selected').IsJoined →
    (Digest.md5 input = Digest.md5 input' → input = input') →
    pageKey label d selected = pageKey label' d' selected' →
      label = label' ∧ d.page = d'.page ∧ d.size = d'.size ∧ d.sorts = d'.sorts ∧
      d.fields = d'.fields ∧ selected = selected' ∧ d.filter.ordered = d'.filter.ordered ∧
      ∀ c : Config, (Query.ofDescriptor c d).map Query.ordered =
        (Query.ofDescriptor c d').map Query.ordered := by
  intro d d' input input' hjoined hjoined' hdigest hkey
  obtain ⟨hsame, hordered, hselected⟩ := pageKey_inj (Descriptor.isJson_filter cfg hr)
    (Descriptor.isJson_filter cfg' hr') hlabel hlabel' hjoined hjoined' hdigest hkey
  have hparts : d.page = d'.page ∧ d.size = d'.size ∧ d.sorts = d'.sorts ∧ d.fields = d'.fields ∧
      d.filter.ordered = d'.filter.ordered := by
    simpa [Descriptor.ordered] using hordered
  obtain ⟨hpage, hsize, hsorts, hfields, hfilter⟩ := hparts
  exact ⟨hsame, hpage, hsize, hsorts, hfields, hselected, hfilter,
    fun c => Query.ofDescriptor_congr c hordered⟩

def nestedRequest (fields : Fields) : Request :=
  .mapping [("filters", .list [.text "place", .object fields]), ("page", .int 2)]

/-- Two requests that write the fields of a value in different order. -/
theorem pageKey_separates_reordered :
    let d := Descriptor.ofRequest {} (nestedRequest [("x", .int 1), ("y", .bool true)])
    let d' := Descriptor.ofRequest {} (nestedRequest [("y", .bool true), ("x", .int 1)])
    pageKey "places:" d ["name"] = pageKey "places:" d' ["name"] ∧
      d.filter.ordered = d'.filter.ordered := by
  intro d d'
  have hsort : (Value.object [("x", .int 1), ("y", .bool true)]).ordered =
      (Value.object [("y", .bool true), ("x", .int 1)]).ordered :=
    ordered_perm (List.Perm.swap _ _ _) (by decide)
  have hpayload (fields : Fields) :
      (pagePayload (Descriptor.ofRequest {} (nestedRequest fields)) ["name"]).ordered =
        .object (([("page", .int 2), ("size", .int 10), ("sorts", .list []), ("fields", .list []),
          ("filters", .object (([("type", .text "comparison"), ("column", .text "place"),
            ("operator", .text "="), ("value", (Value.object fields).ordered)] :
              Fields).mergeSort byName)),
          ("selected", .list [.text "name"])] : Fields).mergeSort byName) := rfl
  have hinput : digestInput (pagePayload d ["name"]) = digestInput (pagePayload d' ["name"]) := by
    simp only [digestInput, Json.Form.render, Json.canonical_chars, d, d', hpayload, hsort]
  have hkey : pageKey "places:" d ["name"] = pageKey "places:" d' ["name"] := by
    simp only [pageKey, digest_eq, hinput]
  have hr (fields : Fields) (h : IsJsonFields fields) : (nestedRequest fields).IsJson := by
    intro f hf
    rcases List.mem_cons.mp hf with rfl | hf
    · exact ⟨trivial, h, trivial⟩
    · obtain rfl := List.mem_singleton.mp hf
      trivial
  have hxy := hr [("x", .int 1), ("y", .bool true)] ⟨trivial, trivial, trivial⟩
  have hyx := hr [("y", .bool true), ("x", .int 1)] ⟨trivial, trivial, trivial⟩
  have hseparates := pageKey_separates {} {} _ _ hxy hyx ["name"] ["name"] "places:" "places:"
    (by decide) (by decide) (isJoined_of_isWhole (by decide)) (isJoined_of_isWhole (by decide))
    (fun _ => hinput) hkey
  exact ⟨hkey, hseparates.2.2.2.2.2.2.1⟩

def astralRequest (t : Text) : Request := .mapping [("filters", .list [.text "name", .text t])]

/-- Without the condition on split pairs, requests that ask for different rows may share a key
though the digest tells all inputs apart. -/
theorem pageKey_of_splitPair :
    let d := Descriptor.ofRequest {} (astralRequest Text.astral)
    let d' := Descriptor.ofRequest {} (astralRequest Text.splitPair)
    (astralRequest Text.astral).IsJson ∧ (astralRequest Text.splitPair).IsJson ∧
      digestInput (pagePayload d ["name"]) = digestInput (pagePayload d' ["name"]) ∧
      pageKey "people:" d ["name"] = pageKey "people:" d' ["name"] ∧
      d.filter.ordered ≠ d'.filter.ordered := by
  intro d d'
  have hjson (t : Text) : (astralRequest t).IsJson := by
    rintro f (_ | ⟨_, ⟨⟩⟩)
    exact ⟨trivial, trivial, trivial⟩
  have hfilter (t : Text) : (Descriptor.ofRequest {} (astralRequest t)).filter =
      .comparison ⟨"name", "=", .text t, ""⟩ := rfl
  have hinput : digestInput (pagePayload d ["name"]) = digestInput (pagePayload d' ["name"]) := by
    simp only [digestInput, Json.Form.render, pagePayload, Descriptor.toFields, d, d', hfilter,
      Filter.toValue, Json.Form.chars, List.cons_append, Json.Form.fieldChars,
      Json.stringText_splitPair]
    rfl
  refine ⟨hjson _, hjson _, hinput, ?_, ?_⟩
  · simp only [pageKey, digest_eq, hinput]
  · intro h
    rw [hfilter, hfilter] at h
    have htext := Value.text.inj (Comparison.mk.inj (Filter.comparison.inj h)).2.2.1
    exact absurd htext (by decide)

end Cache

end Paging
