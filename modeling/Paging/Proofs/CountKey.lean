import Paging.Proofs.CanonicalText
import Paging.Proofs.Vocabulary
import Paging.Proofs.Wording

/-! Keys of row counts. A key tells the table, the tokens of the condition and the values of
its parameters; the window of rows and their order have no part in it. -/
namespace Paging

open Value

/-! ### Parameters -/

namespace Value

mutual

theorem IsJson.coerced : ∀ {v : Value}, v.IsJson → v.coerced.IsJson
  | .null, _ | .bool _, _ | .int _, _ | .text _, _ => trivial
  | .float x, _ => by
    rw [Value.coerced]
    split <;> trivial
  | .list _, h => isJsonList_coerced h
  | .object _, h => h

theorem isJsonList_coerced : ∀ {xs : List Value}, IsJsonList xs → IsJsonList (coercedList xs)
  | [], _ => trivial
  | _ :: _, h => ⟨h.1.coerced, isJsonList_coerced h.2⟩

end

theorem IsJson.elements {v : Value} (hv : v.IsJson) {xs : List Value} (h : v.elements? = some xs) :
    ∀ x ∈ xs, x.IsJson := by
  cases v with
  | list ys =>
    obtain rfl : ys = xs := Option.some.inj h
    exact isJsonList_iff.mp hv
  | tuple ys => exact hv.elim
  | _ => cases h

end Value

def Predicate.IsJson (p : Predicate) : Prop := ∀ v ∈ p.params, v.IsJson

namespace Comparison

theorem isJson_patternPredicate (cfg : Config) (column : Text) {c : Comparison}
    (hc : c.value.IsJson) : Gives (patternPredicate cfg column c) Predicate.IsJson := by
  have hvalue : Gives (wrappedValue cfg c.value) Value.IsJson := by
    intro v hv
    unfold wrappedValue at hv
    split at hv
    · split at hv
      · cases hv
        trivial
      · rename_i s _ _
        cases hs : Text.Template.fill cfg.valueWrapper s with
        | error e => rw [hs] at hv; cases hv
        | ok t => rw [hs] at hv; cases hv; trivial
    · cases hv
      exact hc
  refine .bind (.trivially _) fun _ _ => .bind hvalue fun v hv => .ok ?_
  intro w hw
  obtain rfl : w = v := by simpa using hw
  exact hv

theorem isJson_predicate (cfg : Config) {c : Comparison} (hc : c.value.IsJson) :
    Gives (c.predicate cfg) fun p => ∀ q, p = .ok q → q.IsJson := by
  have hone {v : Value} (hv : v.IsJson) (tokens : List Text) :
      ∀ q, (.ok ⟨tokens, [v]⟩ : Except Dropped Predicate) = .ok q → q.IsJson := by
    rintro _ ⟨⟩ w hw
    rwa [List.mem_singleton.mp hw]
  unfold predicate
  dsimp only
  split
  · exact .ok (by rintro _ ⟨⟩)
  split
  · split
    · refine .ok ?_
      rintro _ ⟨⟩ w hw
      cases hw
    · exact .ok (hone hc _)
  · split
    · rename_i low high hxs
      refine .ok ?_
      rintro _ ⟨⟩ w hw
      have hbounds := hc.elements hxs
      rcases List.mem_cons.mp hw with rfl | hw
      · exact (hbounds low (by simp)).coerced
      · rw [List.mem_singleton.mp hw]
        exact (hbounds high (by simp)).coerced
    · exact .ok (by rintro _ ⟨⟩)
  · split
    · exact .ok (hone hc.coerced _)
    · exact .ok (by rintro _ ⟨⟩)
  · intro p hp
    cases hpattern : patternPredicate cfg (columnToken cfg c.column) c with
    | error e => rw [hpattern] at hp; cases hp
    | ok q =>
      rw [hpattern] at hp
      cases hp
      rintro _ ⟨⟩
      exact isJson_patternPredicate cfg _ hc q hpattern
  · exact .ok (hone hc.coerced _)

theorem isJson_predicateOrEmpty (cfg : Config) {c : Comparison} (hc : c.value.IsJson) :
    Gives (c.predicateOrEmpty cfg) Predicate.IsJson := by
  intro p hp
  rw [predicateOrEmpty] at hp
  cases hc' : c.predicate cfg with
  | error e => rw [hc'] at hp; cases hp
  | ok o =>
    rw [hc'] at hp
    cases o with
    | error why =>
      cases hp
      intro v hv
      cases hv
    | ok q =>
      cases hp
      exact isJson_predicate cfg hc _ hc' q rfl

end Comparison

namespace Predicate

theorem isJson_assemble (cfg : Config) {frs : List Fragment}
    (h : ∀ fr ∈ frs, fr.predicate.IsJson) : (assemble cfg frs).IsJson := by
  have hkept : ∀ fr ∈ interleave Fragment.isConnector (connectorFragment cfg.operator.text)
      (frs.filter fun fr => !fr.predicate.tokens.isEmpty), fr.predicate.IsJson := by
    intro fr hfr
    rcases mem_interleave hfr with hfr | rfl
    · exact h fr (List.mem_filter.mp hfr).1
    · intro v hv
      cases hv
  intro v hv
  rw [assemble, enclose.eq_def] at hv
  split at hv
  · cases hv
  · rename_i fs hfs
    obtain ⟨fr, hfr, hv⟩ := List.mem_flatMap.mp hv
    exact hkept fr hfr v hv

mutual

theorem isJson_ofFilter (cfg : Config) : ∀ f : Filter, f.IsJson → Gives (ofFilter cfg f) IsJson
  | .comparison c, h => c.isJson_predicateOrEmpty cfg (h c List.mem_cons_self)
  | .connector _, _ => .ok fun v hv => by cases hv
  | .group children, h =>
    .bind (isJson_fragments cfg children h) fun _ hfrs => .ok (isJson_assemble cfg hfrs)

theorem isJson_fragments (cfg : Config) : ∀ fs : List Filter,
    (∀ c ∈ Filter.comparisonsOf fs, c.value.IsJson) →
      Gives (fragments cfg fs) fun frs => ∀ fr ∈ frs, fr.predicate.IsJson
  | [], _ => .ok fun fr hfr => by cases hfr
  | f :: fs, h =>
    .bind (isJson_ofFilter cfg f fun c hc => h c (List.mem_append_left _ hc)) fun p hp =>
      .bind (isJson_fragments cfg fs fun c hc => h c (List.mem_append_right _ hc)) fun frs hfrs =>
        .ok fun fr hfr => by
          rcases List.mem_cons.mp hfr with rfl | hfr
          · exact hp
          · exact hfrs fr hfr

end

end Predicate

namespace Query

theorem isJson_params (cfg : Config) {d : Descriptor} (hd : d.filter.IsJson) :
    Gives (ofDescriptor cfg d) fun q => IsJsonList q.params :=
  .bind (Predicate.isJson_ofFilter cfg d.filter hd) fun _ hp => .ok (isJsonList_iff.mpr hp)

end Query

/-! ### Keys -/

namespace Cache

theorem countKey_inj {q q' : Query} (hq : IsJsonList q.params) (hq' : IsJsonList q'.params)
    {table table' : String} (hjoined : (countPayload q).IsJoined)
    (hjoined' : (countPayload q').IsJoined)
    (hdigest : Digest.md5 (digestInput (countPayload q)) =
        Digest.md5 (digestInput (countPayload q')) →
      digestInput (countPayload q) = digestInput (countPayload q'))
    (hkey : countKey table q = countKey table' q') :
    table = table' ∧ q.whereText = q'.whereText ∧
      q.params.map Value.ordered = q'.params.map Value.ordered := by
  simp only [countKey, digest_eq] at hkey
  obtain ⟨hlabel, hmd5⟩ := append_md5_inj hkey
  have htable : table = table' := by
    have hlist := congrArg String.toList hlabel
    simp only [String.toList_append, List.append_assoc] at hlist
    exact String.toList_inj.mp (List.append_cancel_right (List.append_cancel_left hlist))
  have hordered := ordered_eq_of_digestInput (v := countPayload q) (w := countPayload q')
    ⟨trivial, hq, trivial⟩ ⟨trivial, hq', trivial⟩ hjoined hjoined' (hdigest hmd5)
  have hitems := Value.list.inj hordered
  have htext : q.whereText = q'.whereText := Value.text.inj (List.cons.inj hitems).1
  have hparams := Value.list.inj (List.cons.inj (List.cons.inj hitems).2).1
  rw [orderedList_eq_map, orderedList_eq_map] at hparams
  exact ⟨htable, htext, hparams⟩

end Cache

/-! ### Conditions -/

/-- What a client's filter compiles to has no condition, or the tokens of one phrase. -/
theorem Query.derives_wheres {cfg : Config} (hcfg : cfg.Untemplated) {r : Request} {q : Query}
    (hq : ofDescriptor cfg (Descriptor.ofRequest cfg r) = .ok q) :
    q.wheres = [] ∨ ∃ p : Phrase, p.Derives cfg.sqlDialect q.wheres := by
  have hfilter : (Descriptor.ofRequest cfg r).filter =
      Filter.ofValue cfg (Filter.clientValue (r.parameters cfg).filters) :=
    Filter.ofInput_eq cfg _
  obtain ⟨p, hp, hread⟩ := Predicate.readBack hcfg (hfilter ▸ Filter.canonical_ofValue cfg _)
  rw [Query.ofDescriptor_eq hp] at hq
  obtain rfl := Except.ok.inj hq
  have hroot : (Descriptor.ofRequest cfg r).filter.isConnector = false :=
    hfilter ▸ Filter.isConnector_ofValue cfg _
  generalize (Descriptor.ofRequest cfg r).filter = f at hread hroot
  cases hread with
  | connector k => cases hroot
  | nothing _ _ => exact Or.inl rfl
  | @phrase _ _ t _ _ hder => exact Or.inr ⟨t, hder⟩

theorem Query.wheres_of_whereText {cfg : Config} (hcfg : cfg.Untemplated) {r r' : Request}
    {q q' : Query} (hq : ofDescriptor cfg (Descriptor.ofRequest cfg r) = .ok q)
    (hq' : ofDescriptor cfg (Descriptor.ofRequest cfg r') = .ok q')
    (h : q.whereText = q'.whereText) : q.wheres = q'.wheres := by
  have hd := Dialect.sqlDialect_mem_known cfg
  have hempty : (" " : Text).intercalate [] = "" := rfl
  rw [whereText, whereText] at h
  rcases derives_wheres hcfg hq with hnil | ⟨p, hp⟩
  · rcases derives_wheres hcfg hq' with hnil' | ⟨p', hp'⟩
    · rw [hnil, hnil']
    · rw [hnil, hempty] at h
      exact absurd h.symm (hp'.text_ne hd)
  · rcases derives_wheres hcfg hq' with hnil' | ⟨p', hp'⟩
    · rw [hnil', hempty] at h
      exact absurd h (hp.text_ne hd)
    · exact hp.of_text_eq hd hp' h

namespace Cache

/-- Two counts share a key only if table, tokens and parameters are the same, down to the kind of
every value and up to the order of fields, and the key heeds neither the window nor the order of
rows. The conditions hold no split pair, and the digest has to tell the two inputs apart. -/
theorem countKey_separates (config : Config) (hf : config.fieldWrapper = "")
    (hv : config.valueWrapper = "") (dialect : Option String) (r r' : Request) (hr : r.IsJson)
    (hr' : r'.IsJson) (table table' : String) :
    let cfg := config.resolve dialect
    ∀ q q', Query.ofDescriptor cfg (Descriptor.ofRequest cfg r) = .ok q →
      Query.ofDescriptor cfg (Descriptor.ofRequest cfg r') = .ok q' →
      let input := digestInput (countPayload q)
      let input' := digestInput (countPayload q')
      ((countPayload q).IsJoined → (countPayload q').IsJoined →
        (Digest.md5 input = Digest.md5 input' → input = input') →
        countKey table q = countKey table' q' →
          table = table' ∧ q.wheres = q'.wheres ∧
            q.params.map Value.ordered = q'.params.map Value.ordered) ∧
      ∀ limit offset sorts,
        countKey table { q with limit := limit, offset := offset, sorts := sorts } =
          countKey table q := by
  intro cfg q q' hq hq' input input'
  have hcfg : cfg.Untemplated := config.untemplated_resolve dialect hf hv
  refine ⟨fun hjoined hjoined' hdigest hkey => ?_, fun limit offset sorts => rfl⟩
  have hparams := Query.isJson_params cfg (Descriptor.isJson_filter cfg hr) q hq
  have hparams' := Query.isJson_params cfg (Descriptor.isJson_filter cfg hr') q' hq'
  obtain ⟨htable, htext, hvalues⟩ := countKey_inj hparams hparams' hjoined hjoined' hdigest hkey
  exact ⟨htable, Query.wheres_of_whereText hcfg hq hq' htext, hvalues⟩

def awkwardRequest (fields : Fields) (extra : Text × Value) : Request :=
  .mapping [("filters", .list [.text "a \" ( ?", .object fields]), extra]

def awkwardTokens : List Text := ["\"a \"\" ( ?\"", "=", "?"]

theorem awkwardRequest_compiled (fields : Fields) (extra : Text × Value) :
    ∃ q, Query.ofDescriptor (({} : Config).resolve (some "sqlite"))
        (Descriptor.ofRequest (({} : Config).resolve (some "sqlite"))
          (awkwardRequest fields extra)) = .ok q ∧
      q.wheres = awkwardTokens ∧ q.params = [.object fields] := by
  set cfg := ({} : Config).resolve (some "sqlite")
  set c : Comparison := ⟨"a \" ( ?", "=", .object fields, ""⟩ with hc
  have hfilter : (Descriptor.ofRequest cfg (awkwardRequest fields extra)).filter = .comparison c :=
    rfl
  have hcolumn : Comparison.columnToken cfg c.column = "\"a \"\" ( ?\"" := by
    show Comparison.columnToken cfg "a \" ( ?" = _
    decide
  have hatom : (c.atom cfg .eq).tokens cfg.sqlDialect = awkwardTokens := by
    rw [Comparison.atom, hcolumn]
    rfl
  have hp : Predicate.ofFilter cfg (.comparison c) =
      .ok ⟨awkwardTokens, [.object fields]⟩ := by
    have husable : c.Usable cfg := ⟨by rw [hcolumn]; decide, trivial⟩
    rw [Predicate.ofFilter, Comparison.predicateOrEmpty_of_usable (o := .eq)
      (({} : Config).untemplated_resolve (some "sqlite") rfl rfl) rfl (Or.inl rfl) husable, hatom]
    rfl
  exact ⟨_, Query.ofDescriptor_eq (hfilter ▸ hp), rfl, rfl⟩

theorem isJson_awkwardRequest {fields : Fields} {extra : Text × Value}
    (hfields : IsJsonFields fields) (hextra : extra.2.IsJson) :
    (awkwardRequest fields extra).IsJson := by
  intro f hf
  rcases List.mem_cons.mp hf with rfl | hf
  · exact ⟨trivial, hfields, trivial⟩
  · rwa [List.mem_singleton.mp hf]

/-- Two requests for different windows that write the fields of a value in different order. -/
theorem countKey_separates_awkward :
    let cfg := ({} : Config).resolve (some "sqlite")
    ∃ q q', Query.ofDescriptor cfg (Descriptor.ofRequest cfg
        (awkwardRequest [("x", .int 1), ("y", .null)] ("page", .int 3))) = .ok q ∧
      Query.ofDescriptor cfg (Descriptor.ofRequest cfg
        (awkwardRequest [("y", .null), ("x", .int 1)] ("sort", .text "-name"))) = .ok q' ∧
      countKey "users" q = countKey "users" q' ∧
      q.wheres = awkwardTokens ∧ q.wheres = q'.wheres ∧
      q.params.map Value.ordered = q'.params.map Value.ordered := by
  intro cfg
  have hjoined {q : Query} {fields : Fields} (hw : q.wheres = awkwardTokens)
      (hp : q.params = [.object fields]) (hfields : isWholeFields fields = true) :
      (countPayload q).IsJoined := by
    rw [countPayload, Query.whereText, hw, hp]
    exact ⟨Text.isJoined_of_isWhole (by decide),
      ⟨isJoinedFields_of_isWhole hfields, trivial⟩, trivial⟩
  obtain ⟨q, hq, hw, hp⟩ := awkwardRequest_compiled [("x", .int 1), ("y", .null)] ("page", .int 3)
  obtain ⟨q', hq', hw', hp'⟩ :=
    awkwardRequest_compiled [("y", .null), ("x", .int 1)] ("sort", .text "-name")
  have hsort : (Value.object [("x", .int 1), ("y", .null)]).ordered =
      (Value.object [("y", .null), ("x", .int 1)]).ordered :=
    ordered_perm (List.Perm.swap _ _ _) (by decide)
  have hinput : digestInput (countPayload q) = digestInput (countPayload q') := by
    simp only [digestInput, Json.Form.render, Json.canonical_chars, countPayload, Query.whereText,
      hw, hw', hp, hp', Value.ordered, orderedList] at hsort ⊢
    rw [hsort]
  have hkey : countKey "users" q = countKey "users" q' := by
    simp only [countKey, digest_eq, hinput]
  have hxy : (awkwardRequest [("x", .int 1), ("y", .null)] ("page", .int 3)).IsJson :=
    isJson_awkwardRequest ⟨trivial, trivial, trivial⟩ trivial
  have hyx : (awkwardRequest [("y", .null), ("x", .int 1)] ("sort", .text "-name")).IsJson :=
    isJson_awkwardRequest ⟨trivial, trivial, trivial⟩ trivial
  have hseparates := (countKey_separates {} rfl rfl (some "sqlite") _ _
    hxy hyx "users" "users" q q' hq hq').1 (hjoined hw hp (by decide)) (hjoined hw' hp' (by decide))
    (fun _ => hinput) hkey
  exact ⟨q, q', hq, hq', hkey, hw, hseparates.2⟩

/-- What a key is computed from is the text of the condition and that of the parameters. -/
theorem digestInput_congr {q q' : Query} (hwheres : q.wheres = q'.wheres)
    (hparams : Json.canonical.listChars q.params = Json.canonical.listChars q'.params) :
    digestInput (countPayload q) = digestInput (countPayload q') := by
  simp only [digestInput, Json.Form.render, countPayload, Query.whereText, Json.Form.chars,
    Json.Form.listChars, hwheres, hparams]

/-- Without the condition on split pairs, different parameters may share a count's key though the
digest tells all inputs apart. -/
theorem countKey_of_splitPair :
    let cfg := ({} : Config).resolve (some "sqlite")
    let request (t : Text) := awkwardRequest [("x", .text t)] ("page", .int 1)
    ∃ q q', Query.ofDescriptor cfg (Descriptor.ofRequest cfg (request Text.astral)) = .ok q ∧
      Query.ofDescriptor cfg (Descriptor.ofRequest cfg (request Text.splitPair)) = .ok q' ∧
      (∀ t, (request t).IsJson) ∧ digestInput (countPayload q) = digestInput (countPayload q') ∧
      countKey "users" q = countKey "users" q' ∧
      q.params.map Value.ordered ≠ q'.params.map Value.ordered := by
  intro cfg request
  obtain ⟨q, hq, hw, hp⟩ := awkwardRequest_compiled [("x", .text Text.astral)] ("page", .int 1)
  obtain ⟨q', hq', hw', hp'⟩ :=
    awkwardRequest_compiled [("x", .text Text.splitPair)] ("page", .int 1)
  have hinput : digestInput (countPayload q) = digestInput (countPayload q') :=
    digestInput_congr (hw.trans hw'.symm) (by simp only [hp, hp', Json.Form.listChars,
      Json.Form.chars, Json.Form.fieldChars, Json.stringText_splitPair])
  refine ⟨q, q', hq, hq', fun t => isJson_awkwardRequest ⟨trivial, trivial⟩ trivial, hinput, ?_, ?_⟩
  · simp only [countKey, digest_eq, hinput]
  · rw [hp, hp']
    intro h
    have hfields := Value.object.inj (List.cons.inj h).1
    exact absurd hfields (by simp [orderedFields, Value.ordered]; decide)

end Cache

end Paging
