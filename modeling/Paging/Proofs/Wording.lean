import Mathlib.Data.List.Basic
import Paging.Proofs.Grammar

/-! The text of a predicate. Single spaces stand between its tokens, and a quoted identifier
may hold spaces, parentheses and placeholders of its own. Read from the left the text still
shows where every token ends, so it determines them all. -/
namespace Paging

def spaced (tokens : List Text) : List Letter := tokens.flatMap fun t => .char ' ' :: t.toList

@[simp] theorem spaced_nil : spaced [] = [] := rfl

@[simp] theorem spaced_cons (t : Text) (ts : List Text) :
    spaced (t :: ts) = .char ' ' :: (t.toList ++ spaced ts) := rfl

@[simp] theorem spaced_append (ts us : List Text) : spaced (ts ++ us) = spaced ts ++ spaced us :=
  List.flatMap_append

theorem cons_intercalate (t : Text) (ts : List Text) :
    .char ' ' :: ((" " : Text).intercalate (t :: ts)).toList = spaced (t :: ts) := by
  induction ts generalizing t with
  | nil => simp
  | cons u ts ih =>
    have hstep : ((" " : Text).intercalate (t :: u :: ts)).toList =
        t.toList ++ .char ' ' :: ((" " : Text).intercalate (u :: ts)).toList := by
      rw [Text.intercalate_cons_cons]
      simp
    rw [hstep, ih, spaced_cons t]

/-! ### Columns -/

theorem append_space_inj {a b r s : List Letter} (ha : .char ' ' ∉ a) (hb : .char ' ' ∉ b)
    (h : a ++ .char ' ' :: r = b ++ .char ' ' :: s) : a = b ∧ r = s := by
  induction a generalizing b with
  | nil =>
    cases b with
    | nil => exact ⟨rfl, (List.cons.inj h).2⟩
    | cons d b => exact absurd ((List.cons.inj h).1 ▸ List.mem_cons_self) hb
  | cons c a ih =>
    cases b with
    | nil => exact absurd ((List.cons.inj h).1 ▸ List.mem_cons_self) ha
    | cons d b =>
      obtain ⟨rfl, htail⟩ := List.cons.inj h
      obtain ⟨rfl, hrest⟩ := ih (fun hmem => ha (List.mem_cons_of_mem _ hmem))
        (fun hmem => hb (List.mem_cons_of_mem _ hmem)) htail
      exact ⟨rfl, hrest⟩

theorem not_isWordChar_space : ¬ IsWordChar ' ' := by decide

variable {d : Dialect} {t u : Text} {r s : List Letter}

theorem IsIdentifier.append_inj {q : Quoting} (hq : d.quoting = some q) (ht : IsIdentifier d t)
    (hu : IsIdentifier d u) (hr : r.head? ≠ some q.mark) (hs : s.head? ≠ some q.mark)
    (h : t.toList ++ r = u.toList ++ s) : t = u ∧ r = s := by
  rw [IsIdentifier] at ht hu
  simp only [hq] at ht hu
  obtain ⟨body, hbody, hdoubled⟩ := ht
  obtain ⟨body', hbody', hdoubled'⟩ := hu
  have htail : body ++ q.mark :: r = body' ++ q.mark :: s := by
    simpa [hbody, hbody'] using h
  have hrest : r = s := by
    have hafter := hdoubled.afterQuote r hr
    rw [htail, hdoubled'.afterQuote s hs] at hafter
    exact (Option.some.inj hafter).symm
  subst hrest
  exact ⟨Text.toList_inj.mp (List.append_cancel_right h), rfl⟩

theorem IsColumn.space_notMem (hd : d ∈ Dialect.known) (hq : d.quoting = none) (ht : IsColumn d t) :
    .char ' ' ∉ t.toList := by
  obtain ⟨name, hname, ht⟩ := ht
  rw [IsIdentifier] at hname
  simp only [hq] at hname
  have hword : .char ' ' ∉ name.toList := fun hmem => not_isWordChar_space (hname.2 _ hmem)
  rcases ht with rfl | hfill
  · exact hword
  · obtain ⟨pre, post, hw, hpre, hpost, -⟩ := Dialect.fill_fieldWrapper hd
    rw [hw name] at hfill
    rw [← Except.ok.inj hfill, Text.toList_ofList]
    simp [hpre, hpost, hword]

theorem Dialect.mark_ne (hd : d ∈ known) {q : Quoting} (hq : d.quoting = some q) :
    q.mark ≠ 'L' ∧ q.mark ≠ ' ' ∧ q.mark ≠ ')' := by
  rcases mem_known_iff.mp hd with rfl | rfl | rfl | rfl | rfl <;> cases hq <;> decide

theorem IsColumn.append_inj (hd : d ∈ Dialect.known) (ht : IsColumn d t) (hu : IsColumn d u)
    (h : t.toList ++ .char ' ' :: r = u.toList ++ .char ' ' :: s) : t = u ∧ r = s := by
  cases hq : d.quoting with
  | none =>
    obtain ⟨htu, hrest⟩ := append_space_inj (ht.space_notMem hd hq) (hu.space_notMem hd hq) h
    exact ⟨Text.toList_inj.mp htu, hrest⟩
  | some q =>
    obtain ⟨hletter, hspace, hclose⟩ := Dialect.mark_ne hd hq
    obtain ⟨pre, post, hw, -, -, hpost⟩ := Dialect.fill_fieldWrapper hd
    have hmark {name : Text} (hname : IsIdentifier d name) (x : List Letter) :
        (name.toList ++ x).head? = some q.mark := by
      rw [IsIdentifier] at hname
      simp only [hq] at hname
      obtain ⟨body, hbody, -⟩ := hname
      rw [hbody]
      rfl
    have hafter (x : List Letter) : (Letter.char ' ' :: x).head? ≠ some q.mark := by
      simpa using hspace.symm
    have hafter' (x : List Letter) : (letters post ++ .char ' ' :: x).head? ≠ some q.mark := by
      simpa [hpost] using hclose.symm
    have hwrapped {name t : Text} (hfill : Text.Template.fill d.fieldWrapper name = .ok t) :
        t.toList = letters ('L' :: pre) ++ name.toList ++ letters post := by
      rw [hw name] at hfill
      rw [← Except.ok.inj hfill, Text.toList_ofList]
    obtain ⟨name, hname, ht⟩ := ht
    obtain ⟨name', hname', hu⟩ := hu
    rcases ht with rfl | hfill <;> rcases hu with rfl | hfill'
    · obtain ⟨htu, hrest⟩ := hname.append_inj hq hname' (hafter r) (hafter s) h
      exact ⟨htu, (List.cons.inj hrest).2⟩
    · have hhead := hmark hname (' ' :: r)
      rw [h, hwrapped hfill'] at hhead
      exact absurd (Option.some.inj hhead).symm hletter
    · have hhead := hmark hname' (' ' :: s)
      rw [← h, hwrapped hfill] at hhead
      exact absurd (Option.some.inj hhead).symm hletter
    · rw [hwrapped hfill, hwrapped hfill'] at h
      have hbody : name.toList ++ (letters post ++ .char ' ' :: r) =
          name'.toList ++ (letters post ++ .char ' ' :: s) := by
        simpa using h
      obtain ⟨rfl, hrest⟩ := hname.append_inj hq hname' (hafter' r) (hafter' s) hbody
      exact ⟨Except.ok.inj (hfill.symm.trans hfill'),
        (List.cons.inj (List.append_cancel_left hrest)).2⟩

/-! ### Conditions -/

def operand (null : Bool) : Text := if null then "NULL" else "?"

theorem condition_prefix : ∀ o ∈ FilterOperator.all, ∀ null ∈ [true, false],
    ∀ o' ∈ FilterOperator.all, ∀ null' ∈ [true, false],
      (spaced [o.text, operand null]).isPrefixOf (spaced [o'.text, operand null']) = true →
        o = o' ∧ null = null' := by
  decide +kernel

theorem mem_all (o : FilterOperator) : o ∈ FilterOperator.all := by
  cases o <;> decide

theorem condition_append_inj {o o' : FilterOperator} {null null' : Bool}
    (h : spaced [o.text, operand null] ++ r = spaced [o'.text, operand null'] ++ s) :
    o = o' ∧ null = null' ∧ r = s := by
  have hbool (b : Bool) : b ∈ [true, false] := by cases b <;> simp
  have hsame : o = o' ∧ null = null' := by
    rcases List.append_eq_append_iff.mp h with ⟨x, hx, -⟩ | ⟨x, hx, -⟩
    · exact condition_prefix o (mem_all o) null (hbool null) o' (mem_all o') null' (hbool null')
        (List.isPrefixOf_iff_prefix.mpr ⟨x, hx.symm⟩)
    · obtain ⟨ho, hnull⟩ := condition_prefix o' (mem_all o') null' (hbool null') o (mem_all o) null
        (hbool null) (List.isPrefixOf_iff_prefix.mpr ⟨x, hx.symm⟩)
      exact ⟨ho.symm, hnull.symm⟩
  obtain ⟨rfl, rfl⟩ := hsame
  exact ⟨rfl, rfl, List.append_cancel_left h⟩

/-! ### Phrases -/

/-- What may follow a phrase: nothing, or a token that is no escape clause. -/
def Goes (r : List Letter) : Prop := r = [] ∨ ∃ c r', r = .char ' ' :: c :: r' ∧ c ≠ 'E'

theorem escapeSuffix_head (hd : d ∈ Dialect.known) (hne : d.escapeSuffix ≠ "") :
    ∃ r, d.escapeSuffix.toList = .char 'E' :: r := by
  rcases Dialect.mem_known_iff.mp hd with rfl | rfl | rfl | rfl | rfl
  · exact absurd rfl hne
  all_goals exact ⟨_, rfl⟩

theorem Goes.ne_escape (hd : d ∈ Dialect.known) (hne : d.escapeSuffix ≠ "") {r s : List Letter}
    (hr : Goes r) : r ≠ .char ' ' :: (d.escapeSuffix.toList ++ s) := by
  obtain ⟨x, hx⟩ := escapeSuffix_head hd hne
  rw [hx]
  rcases hr with rfl | ⟨c, r', rfl, hc⟩
  · simp
  · simp [hc]

theorem comparison_append_inj (hd : d ∈ Dialect.known) (ht : IsColumn d t) (hu : IsColumn d u)
    {o o' : FilterOperator} {null null' : Bool}
    (h : spaced [t, o.text, operand null] ++ r = spaced [u, o'.text, operand null'] ++ s) :
    t = u ∧ o = o' ∧ null = null' ∧ r = s := by
  have hcolumn : t.toList ++ .char ' ' :: (o.text.toList ++ (spaced [operand null] ++ r)) =
      u.toList ++ .char ' ' :: (o'.text.toList ++ (spaced [operand null'] ++ s)) := by
    simpa using h
  obtain ⟨rfl, hrest⟩ := ht.append_inj hd hu hcolumn
  have hcondition : spaced [o.text, operand null] ++ r = spaced [o'.text, operand null'] ++ s := by
    simpa using hrest
  obtain ⟨ho, hnull, hrs⟩ := condition_append_inj hcondition
  exact ⟨rfl, ho, hnull, hrs⟩

theorem IsColumn.spaced_ne (hd : d ∈ Dialect.known) (ht : IsColumn d t) {c : Letter}
    (hc : c = '(' ∨ c = '?') {ts : List Text} : spaced (t :: ts) ++ r ≠ .char ' ' :: c :: s := by
  obtain ⟨a, x, hx, ha⟩ := ht.exists_cons hd
  rw [spaced_cons, hx]
  intro h
  obtain rfl : a = c := (List.cons.inj (List.cons.inj h).2).1
  rcases hc with rfl | rfl <;> exact absurd ha (by decide)

namespace Atom

def opening : Atom → List Text
  | .between _ _ => ["("]
  | _ => []

def isNull : Atom → Bool
  | .null _ _ => true
  | _ => false

def ending (d : Dialect) : Atom → List Text
  | .escaped _ _ => [d.escapeSuffix]
  | .between _ _ => ["AND", "?", ")"]
  | _ => []

theorem spaced_tokens_append (d : Dialect) (a : Atom) (r : List Letter) :
    spaced (a.tokens d) ++ r = spaced a.opening ++
      (spaced [a.column, a.operator.text, operand a.isNull] ++ (spaced (a.ending d) ++ r)) := by
  cases a <;> simp [tokens, opening, column, operator, isNull, ending, operand]

theorem opens_iff (hd : d ∈ Dialect.known) {a : Atom} (ha : a.Valid d) (r : List Letter) :
    (∃ s, spaced (a.tokens d) ++ r = .char ' ' :: .char '(' :: s) ↔ a.opening = [("(" : Text)] := by
  rw [spaced_tokens_append]
  cases a
  case between c o => exact ⟨fun _ => rfl, fun _ => ⟨_, rfl⟩⟩
  all_goals
    refine ⟨?_, fun h => by cases h⟩
    rintro ⟨s, h⟩
    exact absurd h (ha.1.spaced_ne hd (Or.inl rfl))

theorem spaced_append_inj (hd : d ∈ Dialect.known) {a b : Atom} (ha : a.Valid d)
    (hb : b.Valid d) (hr : Goes r) (hs : Goes s)
    (h : spaced (a.tokens d) ++ r = spaced (b.tokens d) ++ s) : a = b ∧ r = s := by
  have hopens : a.opening = [("(" : Text)] ↔ b.opening = [("(" : Text)] := by
    rw [← opens_iff hd ha r, ← opens_iff hd hb s, h]
  have hopening : a.opening = b.opening := by
    cases a <;> cases b <;> simp [opening] at hopens ⊢
  rw [spaced_tokens_append, spaced_tokens_append, hopening] at h
  obtain ⟨hcolumn, ho, hnull, hending⟩ :=
    comparison_append_inj hd ha.1 hb.1 (List.append_cancel_left h)
  -- An atom with an escape clause differs from one without only in its ending.
  cases a <;> cases b <;> simp only [opening, isNull, column, operator, ending, spaced_nil,
    List.nil_append, reduceCtorEq] at hcolumn ho hnull hopening hending <;> subst hcolumn ho
  case escaped.bound c o => exact absurd (by simpa using hending.symm) (hs.ne_escape hd ha.2)
  case bound.escaped c o => exact absurd (by simpa using hending) (hr.ne_escape hd hb.2)
  case bound.bound | null.null => exact ⟨rfl, hending⟩
  case escaped.escaped | between.between => exact ⟨rfl, List.append_cancel_left hending⟩

end Atom

theorem Phrase.spaced_ne (hd : d ∈ Dialect.known) {p : Phrase} (hp : p.Valid d) :
    spaced (p.tokens d) ++ r ≠ .char ' ' :: .char '?' :: s := by
  cases p with
  | group first rest => simp [Phrase.tokens]
  | atom a =>
    rw [Phrase.tokens, Atom.spaced_tokens_append]
    cases a
    case between c o => simp [Atom.opening]
    all_goals exact hp.1.spaced_ne hd (Or.inr rfl)

theorem goes_spaced {t : Text} {c : Letter} {x : List Letter} (ht : t.toList = c :: x)
    (hc : c ≠ 'E') (ts : List Text) (r : List Letter) : Goes (spaced (t :: ts) ++ r) :=
  Or.inr ⟨c, x ++ spaced ts ++ r, by simp [ht], hc⟩

theorem Tail.goes (t : Tail) (r : List Letter) :
    Goes (spaced (t.tokens d) ++ (spaced [")"] ++ r)) := by
  cases t with
  | done => exact goes_spaced (t := ")") rfl (by decide) [] r
  | more k next rest =>
    rw [Tail.tokens]
    cases k with
    | and => exact goes_spaced (t := "AND") rfl (by decide) _ _
    | or => exact goes_spaced (t := "OR") rfl (by decide) _ _

theorem Atom.spaced_append_ne (hd : d ∈ Dialect.known) {a : Atom} {first : Phrase} {rest : Tail}
    (ha : a.Valid d) (hg : (Phrase.group first rest).Valid d) :
    spaced (a.tokens d) ++ r ≠ spaced ((Phrase.group first rest).tokens d) ++ s := by
  intro h
  obtain ⟨hfirst, hrest⟩ := hg
  have hopening : a.opening = [("(" : Text)] := (opens_iff hd ha r).mp ⟨_, h⟩
  cases a <;> cases hopening
  case between c o =>
    have hbody : spaced [c, o.text, operand false] ++ (spaced ["AND", "?", ")"] ++ r) =
        spaced (first.tokens d) ++ (spaced (rest.tokens d) ++ (spaced [")"] ++ s)) := by
      simpa [tokens, Phrase.tokens, operand] using h
    cases first with
    | group first' rest' => exact absurd hbody (ha.1.spaced_ne hd (Or.inl rfl))
    | atom b =>
      rw [Phrase.tokens, spaced_tokens_append] at hbody
      have hopening' : b.opening = [] := by
        cases b <;> first | rfl | exact absurd hbody (ha.1.spaced_ne hd (Or.inl rfl))
      rw [hopening'] at hbody
      obtain ⟨-, -, hnull, hending⟩ := comparison_append_inj hd ha.1 hfirst.1 hbody
      cases b <;> simp only [opening, reduceCtorEq] at hopening'
      case null => cases hnull
      case escaped =>
        have hand : Goes (spaced ["AND", "?", ")"] ++ r) :=
          goes_spaced (t := "AND") rfl (by decide) _ _
        exact absurd (by simpa [ending] using hending) (hand.ne_escape hd hfirst.2)
      case bound =>
        -- `( column BETWEEN ? AND` may open a group as well, but no phrase goes on with `?`.
        cases rest with
        | done => simp [Tail.tokens, ending] at hending
        | more k next rest' =>
          cases k with
          | or => simp [Tail.tokens, Connector.text, ending] at hending
          | and =>
            have hnext : .char ' ' :: .char '?' :: (spaced [")"] ++ r) =
                spaced (next.tokens d) ++ (spaced (rest'.tokens d) ++ (spaced [")"] ++ s)) := by
              simpa [Tail.tokens, Connector.text, ending] using hending
            exact absurd hnext.symm (Phrase.spaced_ne hd hrest.1)

mutual

/-- Where no escape clause follows, a phrase ends where its text ends. -/
theorem Phrase.spaced_append_inj (hd : d ∈ Dialect.known) : ∀ (p q : Phrase) (r s : List Letter),
    p.Valid d → q.Valid d → Goes r → Goes s →
      spaced (p.tokens d) ++ r = spaced (q.tokens d) ++ s → p = q ∧ r = s
  | .atom a, .atom b, r, s, hp, hq, hr, hs, h => by
    obtain ⟨rfl, rfl⟩ := Atom.spaced_append_inj hd hp hq hr hs h
    exact ⟨rfl, rfl⟩
  | .atom a, .group first rest, r, s, hp, hq, _, _, h =>
    absurd h (Atom.spaced_append_ne hd hp hq)
  | .group first rest, .atom b, r, s, hp, hq, _, _, h =>
    absurd h.symm (Atom.spaced_append_ne hd hq hp)
  | .group first rest, .group first' rest', r, s, hp, hq, _, _, h => by
    have hbody : spaced (first.tokens d) ++ (spaced (rest.tokens d) ++ (spaced [")"] ++ r)) =
        spaced (first'.tokens d) ++ (spaced (rest'.tokens d) ++ (spaced [")"] ++ s)) := by
      simpa [Phrase.tokens] using h
    obtain ⟨rfl, hrest⟩ := Phrase.spaced_append_inj hd first first' _ _ hp.1 hq.1
      (rest.goes r) (rest'.goes s) hbody
    obtain ⟨rfl, hrs⟩ := Tail.spaced_append_inj hd rest rest' r s hp.2 hq.2 hrest
    exact ⟨rfl, hrs⟩

theorem Tail.spaced_append_inj (hd : d ∈ Dialect.known) : ∀ (t u : Tail) (r s : List Letter),
    t.Valid d → u.Valid d →
      spaced (t.tokens d) ++ (spaced [")"] ++ r) = spaced (u.tokens d) ++ (spaced [")"] ++ s) →
        t = u ∧ r = s
  | .done, .done, r, s, _, _, h => by
    simpa [Tail.tokens] using h
  | .done, .more k next rest, r, s, _, _, h => by
    cases k <;> simp [Tail.tokens, Connector.text] at h
  | .more k next rest, .done, r, s, _, _, h => by
    cases k <;> simp [Tail.tokens, Connector.text] at h
  | .more k next rest, .more k' next' rest', r, s, ht, hu, h => by
    have hk : k = k' := by
      cases k <;> cases k' <;> first | rfl | simp [Tail.tokens, Connector.text] at h
    subst hk
    have hbody : spaced (next.tokens d) ++ (spaced (rest.tokens d) ++ (spaced [")"] ++ r)) =
        spaced (next'.tokens d) ++ (spaced (rest'.tokens d) ++ (spaced [")"] ++ s)) := by
      simpa [Tail.tokens] using h
    obtain ⟨rfl, hrest⟩ := Phrase.spaced_append_inj hd next next' _ _ ht.1 hu.1
      (rest.goes r) (rest'.goes s) hbody
    obtain ⟨rfl, hrs⟩ := Tail.spaced_append_inj hd rest rest' r s ht.2 hu.2 hrest
    exact ⟨rfl, hrs⟩

end

theorem goes_nil : Goes [] := Or.inl rfl

/-- The text of a phrase determines its tokens. -/
theorem Phrase.Derives.of_text_eq (hd : d ∈ Dialect.known) {p q : Phrase} {ts us : List Text}
    (hp : p.Derives d ts) (hq : q.Derives d us)
    (h : (" " : Text).intercalate ts = (" " : Text).intercalate us) : ts = us := by
  obtain ⟨hvalid, rfl⟩ := hp
  obtain ⟨hvalid', rfl⟩ := hq
  obtain ⟨t, ts, ht⟩ := List.exists_cons_of_ne_nil (p.tokens_ne_nil (d := d))
  obtain ⟨u, us, hu⟩ := List.exists_cons_of_ne_nil (q.tokens_ne_nil (d := d))
  have hspaced : spaced (p.tokens d) ++ [] = spaced (q.tokens d) ++ [] := by
    rw [ht, hu] at h ⊢
    rw [← cons_intercalate, ← cons_intercalate, h]
  obtain ⟨rfl, -⟩ := Phrase.spaced_append_inj hd p q [] [] hvalid hvalid' goes_nil goes_nil hspaced
  rfl

theorem Phrase.spaced_eq (hd : d ∈ Dialect.known) {p : Phrase} (hp : p.Valid d) :
    ∃ c x, spaced (p.tokens d) = .char ' ' :: c :: x := by
  cases p with
  | group first rest => exact ⟨'(', _, rfl⟩
  | atom a =>
    obtain ⟨c, x, hx, -⟩ := hp.1.exists_cons hd
    cases a <;> simp only [Atom.column] at hx <;>
      simp only [Phrase.tokens, Atom.tokens, spaced_cons, hx]
    case between => exact ⟨'(', _, rfl⟩
    all_goals exact ⟨c, _, rfl⟩

theorem Phrase.Derives.text_ne (hd : d ∈ Dialect.known) {p : Phrase} {ts : List Text}
    (hp : p.Derives d ts) : (" " : Text).intercalate ts ≠ "" := by
  obtain ⟨hvalid, rfl⟩ := hp
  obtain ⟨c, x, hspaced⟩ := p.spaced_eq hd hvalid
  obtain ⟨t, ts, ht⟩ := List.exists_cons_of_ne_nil (p.tokens_ne_nil (d := d))
  intro hempty
  rw [ht] at hempty hspaced
  rw [← cons_intercalate, hempty] at hspaced
  simp at hspaced

end Paging
