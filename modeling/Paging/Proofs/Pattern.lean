import Paging.Proofs.WellFormed

/-! What a pattern matches. A database reads a pattern from the left: the escape makes the character
behind it stand for itself, `%` matches any text and `_` any character. Read so, the pattern that is
made of a client's text is this text, character by character, with its open sides. -/
namespace Paging
namespace Like

/-- A part of a pattern. -/
inductive Sign
  | char (c : Letter)
  | any
  | one
  deriving DecidableEq

def sign (c : Letter) : Sign :=
  if c = '%' then .any else if c = '_' then .one else .char c

/-- Read a pattern with the escape `e`. A pattern that ends behind an escape cannot be read. -/
def read? (e : Letter) : List Letter → Option (List Sign)
  | [] => some []
  | [c] => if c = e then none else some [sign c]
  | c :: d :: r =>
    if c = e then (read? e r).map (.char d :: ·) else (read? e (d :: r)).map (sign c :: ·)

/-- What a character of a text is meant to match. -/
def literal (c : Letter) : Sign := if c = '_' then .one else .char c

/-- What a text is meant to match if each run of blanks in it may match any text. -/
def loose : List Letter → List Sign
  | [] => []
  | c :: r =>
    if Text.isBlank c then .any :: loose (r.dropWhile Text.isBlank) else literal c :: loose r
termination_by s => s.length
decreasing_by
  · exact Nat.lt_succ_of_le (List.dropWhile_sublist _).length_le
  · exact Nat.lt_succ_self _

@[simp] theorem loose_nil : loose [] = [] := by
  rw [loose.eq_def]

theorem loose_blank {c : Letter} (hc : Text.isBlank c = true) (r : List Letter) :
    loose (c :: r) = .any :: loose (r.dropWhile Text.isBlank) := by
  rw [loose.eq_def]
  exact if_pos hc

theorem loose_cons {c : Letter} (hc : Text.isBlank c = false) (r : List Letter) :
    loose (c :: r) = literal c :: loose r := by
  rw [loose.eq_def]
  exact if_neg (by simp [hc])

/-- What a text is meant to match between the sides of a word for pattern matches. -/
def intended (a : LikeAlias) (smart : Bool) (s : List Letter) : List Sign :=
  (if a.leading then [.any] else []) ++ (if smart then loose s else s.map literal) ++
    if a.trailing then [.any] else []

/-! ### Reading -/

section

variable {e : Letter}

@[simp] theorem read?_nil : read? e [] = some [] := rfl

theorem read?_cons {c : Letter} (hc : c ≠ e) (r : List Letter) :
    read? e (c :: r) = (read? e r).map (sign c :: ·) := by
  cases r <;> simp [read?, hc]

@[simp] theorem read?_escape (d : Letter) (r : List Letter) :
    read? e (e :: d :: r) = (read? e r).map (.char d :: ·) := by
  simp [read?]

def escaped (e c : Letter) : List Letter := if c = e ∨ c = '%' then [e, c] else [c]

/-- The escape is none of the characters with a meaning of their own. -/
structure IsEscape (e : Letter) : Prop where
  ne_any : e ≠ '%'
  ne_one : e ≠ '_'
  notBlank : Text.isBlank e = false

theorem read?_escaped (he : IsEscape e) (c : Letter) (r : List Letter) :
    read? e (escaped e c ++ r) = (read? e r).map (literal c :: ·) := by
  by_cases hc : c = e ∨ c = '%'
  · have hone : c ≠ '_' := by
      rcases hc with rfl | rfl
      · exact he.ne_one
      · decide
    simp [escaped, hc, literal, hone]
  · obtain ⟨hne, hany⟩ := not_or.mp hc
    have hself : escaped e c = [c] := if_neg hc
    rw [hself, List.singleton_append, read?_cons hne]
    simp [sign, literal, hany]

theorem read?_flatMap_escaped (he : IsEscape e) (s r : List Letter) :
    read? e (s.flatMap (escaped e) ++ r) = (read? e r).map (s.map literal ++ ·) := by
  induction s with
  | nil => simp
  | cons c s ih =>
    rw [List.flatMap_cons, List.append_assoc, read?_escaped he, ih, Option.map_map]
    rfl

theorem foldRuns_cons {c : Letter} (hc : Text.isBlank c = false) (inRun : Bool) (r : List Letter) :
    Text.foldRuns wildcard inRun (c :: r) = c :: Text.foldRuns wildcard false r := by
  simp [Text.foldRuns, hc]

/-- A character that is not blank stands as it is between folded runs. -/
theorem foldRuns_escaped (he : IsEscape e) {c : Letter} (hc : Text.isBlank c = false) (inRun : Bool)
    (r : List Letter) : Text.foldRuns wildcard inRun (escaped e c ++ r) =
      escaped e c ++ Text.foldRuns wildcard false r := by
  by_cases h : c = e ∨ c = '%'
  · simp [escaped, h, foldRuns_cons he.notBlank, foldRuns_cons hc]
  · simp [escaped, h, foldRuns_cons hc]

theorem escaped_of_isBlank (he : IsEscape e) {c : Letter} (hc : Text.isBlank c = true) :
    escaped e c = [c] := by
  have hne : ¬ (c = e ∨ c = '%') := by
    rintro (rfl | rfl)
    · rw [he.notBlank] at hc
      cases hc
    · exact absurd hc (by decide)
  simp [escaped, hne]

theorem read?_foldRuns (he : IsEscape e) (s r : List Letter) (inRun : Bool) :
    read? e (Text.foldRuns wildcard inRun (s.flatMap (escaped e)) ++ r) =
      (read? e r).map (loose (if inRun then s.dropWhile Text.isBlank else s) ++ ·) := by
  induction s generalizing inRun with
  | nil => cases inRun <;> simp [Text.foldRuns]
  | cons c s ih =>
    rw [List.flatMap_cons]
    by_cases hc : Text.isBlank c = true
    · rw [escaped_of_isBlank he hc, List.singleton_append]
      cases inRun with
      | true => simpa [Text.foldRuns, hc] using ih true
      | false =>
        have hfold : Text.foldRuns wildcard false (c :: s.flatMap (escaped e)) =
            .char '%' :: Text.foldRuns wildcard true (s.flatMap (escaped e)) := by
          simp [Text.foldRuns, hc, wildcard]
        rw [hfold, List.cons_append, read?_cons he.ne_any.symm, ih true]
        simp [loose_blank hc, sign, Option.map_map, Function.comp_def]
    · have hc : Text.isBlank c = false := by simpa using hc
      rw [foldRuns_escaped he hc, List.append_assoc, read?_escaped he, ih false]
      cases inRun <;> simp [hc, loose_cons hc, Option.map_map, Function.comp_def]

end

/-! ### The pattern that is made of a text -/

theorem replaceFrom_singleton (o : Letter) (new : List Letter) {fuel : ℕ} {s : List Letter}
    (h : s.length ≤ fuel) :
    replaceFrom [o] new fuel s = s.flatMap fun c => if c = o then new else [c] := by
  induction s generalizing fuel with
  | nil => cases fuel <;> rfl
  | cons c s ih =>
    cases fuel with
    | zero => simp at h
    | succ fuel =>
      have hs : s.length ≤ fuel := by simpa using h
      by_cases hc : c = o
      · simp [replaceFrom, hc, ih hs]
      · simp [replaceFrom, hc, Ne.symm hc, ih hs]

theorem toList_escape {e : Letter} (he : e ≠ '%') (s : Text) :
    (escape (Text.singleton e) s).toList = s.toList.flatMap (escaped e) := by
  have hmark : (Text.singleton e).isEmpty = false := rfl
  have hreplace (o : Letter) (new s : List Letter) :
      replace [o] new s = s.flatMap fun c => if c = o then new else [c] :=
    replaceFrom_singleton o new (Nat.le_refl _)
  simp only [escape, hmark, Text.toList_ofList, Text.toList_singleton, hreplace, wildcard,
    Bool.false_eq_true, if_false, List.singleton_append, List.flatMap_assoc]
  congr 1
  funext c
  by_cases hc : c = e
  · simp [hc, escaped, he]
  · by_cases hany : c = '%'
    · subst hany
      simp [Ne.symm he, escaped]
    · simp [hc, hany, escaped]

def pattern (e : Letter) (a : LikeAlias) (smart : Bool) (s : List Letter) : List Letter :=
  (if a.leading then [('%' : Letter)] else []) ++
    (if smart then Text.foldRuns wildcard false (s.flatMap (escaped e))
      else s.flatMap (escaped e)) ++
      if a.trailing then [('%' : Letter)] else []

/-- The pattern of a text is read as what the text is meant to match. -/
theorem read?_pattern {e : Letter} (he : IsEscape e) (a : LikeAlias) (smart : Bool)
    (s : List Letter) : read? e (pattern e a smart s) = some (intended a smart s) := by
  have hany (r : List Letter) : read? e (.char '%' :: r) = (read? e r).map (Sign.any :: ·) :=
    read?_cons he.ne_any.symm r
  have hend : read? e (if a.trailing then [('%' : Letter)] else []) =
      some (if a.trailing then [.any] else []) := by
    cases a.trailing <;> simp [hany]
  have hbody : read? e ((if smart then Text.foldRuns wildcard false (s.flatMap (escaped e))
        else s.flatMap (escaped e)) ++ if a.trailing then [('%' : Letter)] else []) =
      some ((if smart then loose s else s.map literal) ++ if a.trailing then [.any] else []) := by
    cases smart with
    | true => simp [read?_foldRuns he, hend]
    | false => simp [read?_flatMap_escaped he, hend]
  cases hlead : a.leading <;> simp [pattern, intended, hlead, hany, hbody]

/-! ### Lower case -/

end Like

namespace Text

theorem lowerFrom_eq_map {s : List Letter} (hs : ∀ c ∈ s, c.toNat < 128) (before : List Letter) :
    Case.lowerFrom before s = s.map Letter.toLower := by
  induction s generalizing before with
  | nil => rfl
  | cons c s ih =>
    obtain ⟨hc, hs⟩ := List.forall_mem_cons.mp hs
    have hsigma : c ≠ Case.capitalSigma := by
      rintro rfl
      exact absurd hc (by decide)
    simp [Case.lowerFrom, Case.lowerIn, Case.lowerChar, hsigma, hc, ih hs]

theorem toList_lower {s : Text} (hs : ∀ c ∈ s.toList, c.toNat < 128) :
    (lower s).toList = s.toList.map Letter.toLower := by
  rw [lower, Text.toList_ofList, lowerFrom_eq_map hs]

theorem toNat_toLower (c : Letter) :
    c.toLower.toNat = if 65 ≤ c.toNat ∧ c.toNat ≤ 90 then c.toNat + 32 else c.toNat := by
  cases c with
  | half n =>
    have hn : ¬ (65 ≤ (Letter.half n).toNat ∧ (Letter.half n).toNat ≤ 90) := by
      simp only [Letter.toNat]
      omega
    rw [if_neg hn]
    rfl
  | char c =>
    have hrange : (c.val ≥ 'A'.val ∧ c.val ≤ 'Z'.val) ↔ 65 ≤ c.toNat ∧ c.toNat ≤ 90 := by
      simp [UInt32.le_iff_toNat_le]
    show c.toLower.toNat = if 65 ≤ c.toNat ∧ c.toNat ≤ 90 then c.toNat + 32 else c.toNat
    delta Char.toLower
    split
    · rename_i h
      have hc := hrange.mp h
      have hsum : (c.val + ('a'.val - 'A'.val)).toNat = c.toNat + 32 := by
        rw [UInt32.toNat_add, Char.toNat_val]
        exact Nat.mod_eq_of_lt (show c.toNat + 32 < _ by omega)
      rw [if_pos hc, ← hsum]
      rfl
    · rename_i h
      rw [if_neg (mt hrange.mpr h)]

theorem toLower_eq_iff {c d : Letter} (hd : ¬ (65 ≤ d.toNat ∧ d.toNat ≤ 90))
    (hd' : ¬ (97 ≤ d.toNat ∧ d.toNat ≤ 122)) : c.toLower = d ↔ c = d := by
  rw [← Letter.toNat_inj, ← Letter.toNat_inj, toNat_toLower]
  split <;> omega

theorem isBlank_toLower (c : Letter) : isBlank c.toLower = isBlank c := by
  simp only [isBlank, toNat_toLower]
  split
  · rw [Bool.eq_iff_iff]
    simp
    omega
  · rfl

theorem mem_foldRuns {mark c : Letter} {s : List Letter} {inRun : Bool}
    (h : c ∈ foldRuns mark inRun s) : c = mark ∨ c ∈ s := by
  induction s generalizing inRun with
  | nil => simp [foldRuns] at h
  | cons d s ih =>
    rw [foldRuns] at h
    split at h
    · split at h
      · exact (ih h).imp_right (List.mem_cons_of_mem d)
      · rcases List.mem_cons.mp h with h | h
        · exact .inl h
        · exact (ih h).imp_right (List.mem_cons_of_mem d)
    · rcases List.mem_cons.mp h with h | h
      · exact .inr (by simp [h])
      · exact (ih h).imp_right (List.mem_cons_of_mem d)

theorem map_toLower_foldRuns (s : List Letter) (inRun : Bool) :
    (foldRuns Like.wildcard inRun s).map Letter.toLower =
      foldRuns Like.wildcard inRun (s.map Letter.toLower) := by
  induction s generalizing inRun with
  | nil => rfl
  | cons c s ih =>
    have hmark : Like.wildcard.toLower = Like.wildcard := by decide
    by_cases hc : isBlank c = true
    · cases inRun <;> simp [foldRuns, isBlank_toLower, hc, ih, hmark]
    · simp [foldRuns, isBlank_toLower, hc, ih]

end Text

namespace Like

theorem isEscape_backslash : IsEscape '\\' where
  ne_any := by decide
  ne_one := by decide
  notBlank := by decide

theorem map_toLower_flatMap_escaped (s : List Letter) :
    (s.flatMap (escaped '\\')).map Letter.toLower =
      (s.map Letter.toLower).flatMap (escaped '\\') := by
  have hone (c : Letter) : (escaped '\\' c).map Letter.toLower = escaped '\\' c.toLower := by
    have hescape : c.toLower = '\\' ↔ c = '\\' := Text.toLower_eq_iff (by decide) (by decide)
    have hany : c.toLower = '%' ↔ c = '%' := Text.toLower_eq_iff (by decide) (by decide)
    by_cases hc : c = '\\' ∨ c = '%'
    · have hsame : Letter.toLower '\\' = '\\' := rfl
      simp [escaped, hescape, hany, hc, hsame]
    · simp [escaped, hescape, hany, hc]
  simp [List.map_flatMap, List.flatMap_map, hone]

theorem map_toLower_pattern (a : LikeAlias) (smart : Bool) (s : List Letter) :
    (pattern '\\' a smart s).map Letter.toLower = pattern '\\' a smart (s.map Letter.toLower) := by
  have hside (b : Bool) : (if b then [('%' : Letter)] else []).map Letter.toLower =
      if b then [('%' : Letter)] else [] := by
    cases b <;> rfl
  cases smart with
  | true => simp [pattern, hside, Text.map_toLower_foldRuns, map_toLower_flatMap_escaped]
  | false => simp [pattern, hside, map_toLower_flatMap_escaped]

theorem ascii_pattern (a : LikeAlias) (smart : Bool) {s : List Letter}
    (hs : ∀ c ∈ s, c.toNat < 128) : ∀ c ∈ pattern '\\' a smart s, c.toNat < 128 := by
  have hescaped : ∀ c ∈ s.flatMap (escaped '\\'), c.toNat < 128 := by
    intro c hc
    obtain ⟨d, hd, hcd⟩ := List.mem_flatMap.mp hc
    rw [escaped] at hcd
    split at hcd
    · rcases List.mem_pair.mp hcd with rfl | rfl
      · decide
      · exact hs c hd
    · rw [List.mem_singleton.mp hcd]
      exact hs d hd
  have hside (b : Bool) : ∀ c ∈ (if b then [('%' : Letter)] else []), c.toNat < 128 := by
    cases b <;> simp
  intro c hc
  rcases List.mem_append.mp hc with hc | hc
  · rcases List.mem_append.mp hc with hc | hc
    · exact hside _ c hc
    · split at hc
      · rcases Text.mem_foldRuns hc with rfl | hc
        · decide
        · exact hescaped c hc
      · exact hescaped c hc
  · exact hside _ c hc

end Like

namespace Filter

theorem patternMatch_value {cfg : Config} {e : Letter} (he : e ≠ '%')
    (hd : cfg.sqlDialect.escapeChar = Text.singleton e) (column : Text) (a : LikeAlias)
    (v : Value) :
    (patternMatch cfg column a v).value =
      .text (Text.ofList (Like.pattern e a cfg.smartSearch v.plain.toList)) := by
  have hside (b : Bool) : (if b then ("%" : Text) else "").toList =
      if b then [('%' : Letter)] else [] := by
    cases b <;> rfl
  have hescape := Like.toList_escape he v.plain
  simp only [patternMatch, hd, Value.text.injEq, ← Text.toList_inj, Like.pattern,
    Like.wrap, Text.toList_append, hside]
  cases cfg.smartSearch with
  | true => simp [Like.foldBlanks, hescape]
  | false => simp [hescape]

/-- A known dialect with an escape has the backslash, and quotes its columns. -/
theorem escape_eq {cfg : Config} {e : Letter} (he : cfg.sqlDialect.escapeChar = Text.singleton e) :
    e = '\\' ∧ ∀ column, Comparison.columnToken cfg column ≠ "" := by
  have hknown := Dialect.mem_known_iff.mp (Dialect.sqlDialect_mem_known cfg)
  have hchar : cfg.sqlDialect = .standard ∨
      cfg.sqlDialect.escapeChar = "\\" ∧ cfg.sqlDialect.quoting.isSome = true := by
    rcases hknown with h | h | h | h | h <;> rw [h] <;> decide
  rcases hchar with h | ⟨h, hquoting⟩
  · rw [h] at he
    exact absurd (congrArg Text.toList he) (by simp [Dialect.standard])
  · rw [h] at he
    refine ⟨by simpa [eq_comm] using congrArg Text.toList he, fun column => ?_⟩
    obtain ⟨q, hq⟩ := Option.isSome_iff_exists.mp hquoting
    simp [Comparison.columnToken, Dialect.quote, hq, Quoting.quote]

theorem params_of_pattern {cfg : Config} {c : Comparison} {t : Text}
    (hfamily : Comparison.family c.operator = .pattern)
    (hcolumn : Comparison.columnToken cfg c.column ≠ "") (hvalue : c.value = .text t)
    (hwrapper : cfg.valueWrapper = "") :
    (c.predicateOrEmpty cfg).map Predicate.params =
      (Comparison.wrappedColumn cfg (Comparison.columnToken cfg c.column)).map fun _ =>
        [.text (Text.lower t)] := by
  have hne : (Comparison.columnToken cfg c.column).isEmpty = false := by simpa using hcolumn
  simp only [Comparison.predicateOrEmpty, Comparison.predicate, hne, hfamily,
    Comparison.patternPredicate, Comparison.wrappedValue, hvalue, hwrapper]
  cases Comparison.wrappedColumn cfg (Comparison.columnToken cfg c.column) <;> rfl

/-- Patterns mean what the client typed. In a dialect with the escape `e`, the text that is stored
for a pattern match can be read to its end, as the text of the value between the sides of the word:
no wildcard and no escape of the value acts in it. Where the text is put into lower case to be bound
as a parameter and is ASCII, the parameter is read as the text in lower case. -/
theorem pattern_means (cfg : Config) {e : Letter}
    (he : cfg.sqlDialect.escapeChar = Text.singleton e) {column op word : Text} {a : LikeAlias}
    (hcolumn : column ≠ "") (hop : Spelling.read? op = some (.pattern word a)) (v : Value) :
    ∃ c t, (∀ room, ofList? cfg (room + 1) [.text column, .text op, v] = some (.comparison c)) ∧
      c.value = .text t ∧
      Like.read? e t.toList = some (Like.intended a cfg.smartSearch v.plain.toList) ∧
      (cfg.valueWrapper = "" → (∀ d ∈ v.plain.toList, d.toNat < 128) →
        ∃ p, (c.predicateOrEmpty cfg).map Predicate.params =
            (Comparison.wrappedColumn cfg (Comparison.columnToken cfg column)).map
              (fun _ => [.text p]) ∧
          Like.read? e p.toList =
            some (Like.intended a cfg.smartSearch (Text.lower v.plain).toList)) := by
  obtain ⟨rfl, hquoted⟩ := escape_eq he
  have hescape := Like.isEscape_backslash
  have hread := Like.read?_pattern hescape a cfg.smartSearch
  have hvalue := patternMatch_value hescape.ne_any he column a v
  refine ⟨patternMatch cfg column a v, _, fun room => ?_, hvalue, ?_, fun hwrapper hascii => ?_⟩
  · have hne : column.isEmpty = false := by simpa using hcolumn
    simp [ofList?, operands, leaf?, hne, hop, spelled]
  · rw [Text.toList_ofList]
    exact hread _
  · have hfamily : Comparison.family (patternMatch cfg column a v).operator = .pattern := by
      rw [← Spelling.family_of_ofText? hop]
      exact Comparison.family_text a.operator
    refine ⟨_, params_of_pattern hfamily (hquoted column) hvalue hwrapper, ?_⟩
    have hpattern : ∀ d ∈ (Text.ofList (Like.pattern '\\' a cfg.smartSearch
        v.plain.toList)).toList, d.toNat < 128 := by
      rw [Text.toList_ofList]
      exact Like.ascii_pattern a cfg.smartSearch hascii
    rw [Text.toList_lower hpattern, Text.toList_ofList, Like.map_toLower_pattern,
      Text.toList_lower hascii]
    exact hread _

/-- The wildcard and the escape of the value stand for themselves, its blanks for any text. -/
theorem pattern_means_smart :
    let cfg : Config := { dialect := some "sqlite", smartSearch := true }
    cfg.sqlDialect.escapeChar = Text.singleton '\\' ∧
      Spelling.read? "not contains" = some (.pattern "NOT CONTAINS" ⟨.notLike, true, true⟩) ∧
      ∃ c t p, ofList? cfg 1 [.text "name", .text "not contains", .text "A%\\ \t_"] =
          some (.comparison c) ∧ c.value = .text t ∧
        Like.read? '\\' t.toList =
          some [.any, .char 'A', .char '%', .char '\\', .any, .one, .any] ∧
        (c.predicateOrEmpty cfg).map Predicate.params = .ok [.text p] ∧
        Like.read? '\\' p.toList =
          some [.any, .char 'a', .char '%', .char '\\', .any, .one, .any] := by
  intro cfg
  have he : cfg.sqlDialect.escapeChar = Text.singleton '\\' := by decide
  have hop : Spelling.read? "not contains" =
      some (.pattern "NOT CONTAINS" ⟨.notLike, true, true⟩) := by decide
  obtain ⟨c, t, hlist, hvalue, hstored, hbound⟩ :=
    pattern_means cfg he (by decide : ("name" : Text) ≠ "") hop (.text "A%\\ \t_")
  have htext : (Value.text "A%\\ \t_").plain.toList =
      ['A', '%', '\\', ' ', '\t', '_'] := by decide
  obtain ⟨p, hparams, hlower⟩ := hbound rfl (by simp [htext])
  refine ⟨he, hop, c, t, p, hlist 0, hvalue, ?_, hparams, ?_⟩
  · rw [hstored, htext]
    simp [Like.intended, Like.loose_cons, Like.loose_blank, cfg, Like.literal, Text.isBlank]
  · have hlowered : (Text.lower (Value.text "A%\\ \t_").plain).toList =
        ['a', '%', '\\', ' ', '\t', '_'] := by decide
    rw [hlower, hlowered]
    simp [Like.intended, Like.loose_cons, Like.loose_blank, cfg, Like.literal, Text.isBlank]

end Filter

end Paging
