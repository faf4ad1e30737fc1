import Paging.Proofs.Canonical

/-! The grammar of predicates. A phrase is an atom, or phrases in parentheses with a
connector before each but the first. The tokens of a phrase determine it, although a
column may itself be spelled like a connector. -/
namespace Paging

mutual

/-- A condition by its structure. -/
inductive Phrase
  | atom (a : Atom)
  | group (first : Phrase) (rest : Tail)

inductive Tail
  | done
  | more (k : Connector) (next : Phrase) (rest : Tail)

end

mutual

def Phrase.tokens (d : Dialect) : Phrase → List Text
  | .atom a => a.tokens d
  | .group first rest => "(" :: (first.tokens d ++ (rest.tokens d ++ [(")" : Text)]))

def Tail.tokens (d : Dialect) : Tail → List Text
  | .done => []
  | .more k next rest => k.text :: (next.tokens d ++ rest.tokens d)

end

mutual

def Phrase.Valid (d : Dialect) : Phrase → Prop
  | .atom a => a.Valid d
  | .group first rest => first.Valid d ∧ rest.Valid d

def Tail.Valid (d : Dialect) : Tail → Prop
  | .done => True
  | .more _ next rest => next.Valid d ∧ rest.Valid d

end

/-- A phrase is a derivation of some tokens: its atoms are valid, and these are its tokens. -/
def Phrase.Derives (d : Dialect) (p : Phrase) (tokens : List Text) : Prop :=
  p.Valid d ∧ p.tokens d = tokens

/-! ### The tokens of a phrase determine it -/

section

variable {d : Dialect}

theorem FilterOperator.text_injective {o o' : FilterOperator} (h : o.text = o'.text) : o = o' := by
  have hs := congrArg FilterOperator.ofText? h
  simpa using hs

theorem Connector.text_injective {k k' : Connector} (h : k.text = k'.text) : k = k' := by
  have hs := congrArg Connector.ofText? h
  simpa using hs

theorem Dialect.escapeSuffix_ne (hd : d ∈ Dialect.known) :
    d.escapeSuffix ≠ ")" ∧ ∀ k : Connector, d.escapeSuffix ≠ k.text := by
  rcases Dialect.mem_known_iff.mp hd with rfl | rfl | rfl | rfl | rfl <;>
    exact ⟨by decide, by rintro (_ | _) <;> decide⟩

/-- Where no escape clause follows, an atom ends where its tokens end. -/
theorem Atom.tokens_append_inj (hd : d ∈ Dialect.known) {a b : Atom} {r s : List Text}
    (ha : a.Valid d) (hb : b.Valid d) (hr : r.head? ≠ some d.escapeSuffix)
    (hs : s.head? ≠ some d.escapeSuffix) (h : a.tokens d ++ r = b.tokens d ++ s) :
    a = b ∧ r = s := by
  have hca := (ha.1.ne hd).1
  have hcb := (hb.1.ne hd).1
  cases a <;> cases b <;> simp only [tokens, column, List.cons_append, List.nil_append,
    List.cons.injEq] at h hca hcb
  case bound.bound => exact ⟨by rw [h.1, FilterOperator.text_injective h.2.1], h.2.2.2⟩
  case null.null => exact ⟨by rw [h.1, FilterOperator.text_injective h.2.1], h.2.2.2⟩
  case escaped.escaped => exact ⟨by rw [h.1, FilterOperator.text_injective h.2.1], h.2.2.2.2⟩
  case between.between =>
    exact ⟨by rw [h.2.1, FilterOperator.text_injective h.2.2.1], h.2.2.2.2.2.2.2⟩
  case bound.null => exact absurd h.2.2.1 (by decide)
  case null.bound => exact absurd h.2.2.1 (by decide)
  case null.escaped => exact absurd h.2.2.1 (by decide)
  case escaped.null => exact absurd h.2.2.1 (by decide)
  case bound.escaped => exact absurd (by rw [h.2.2.2]; rfl) hr
  case escaped.bound => exact absurd (by rw [← h.2.2.2]; rfl) hs
  case bound.between => exact absurd h.1 hca
  case null.between => exact absurd h.1 hca
  case escaped.between => exact absurd h.1 hca
  case between.bound => exact absurd h.1.symm hcb
  case between.null => exact absurd h.1.symm hcb
  case between.escaped => exact absurd h.1.symm hcb

theorem Phrase.tokens_eq_cons (hd : d ∈ Dialect.known) {p : Phrase} (hp : p.Valid d) :
    ∃ t r, p.tokens d = t :: r ∧ t ≠ "?" := by
  cases p with
  | group first rest => exact ⟨"(", _, rfl, by decide⟩
  | atom a =>
    have hc := (IsColumn.ne hd hp.1).2
    cases a with
    | between c o => exact ⟨"(", _, rfl, by decide⟩
    | bound c o => exact ⟨c, _, rfl, hc⟩
    | null c o => exact ⟨c, _, rfl, hc⟩
    | escaped c o => exact ⟨c, _, rfl, hc⟩

theorem Phrase.tokens_ne_nil (p : Phrase) : p.tokens d ≠ [] := by
  cases p with
  | atom a => exact a.tokens_ne_nil d
  | group first rest => simp [Phrase.tokens]

/-- No atom starts like a group. For `( column BETWEEN ? AND ? )` this is decided at its second
placeholder only: up to there a group may read the same. -/
theorem Atom.tokens_append_ne (hd : d ∈ Dialect.known) {a : Atom} {first : Phrase} {rest : Tail}
    {r s : List Text} (ha : a.Valid d) (hg : (Phrase.group first rest).Valid d) :
    a.tokens d ++ r ≠ (Phrase.group first rest).tokens d ++ s := by
  intro h
  have hca := (ha.1.ne hd).1
  obtain ⟨hfirst, hrest⟩ := hg
  cases a <;> simp only [tokens, column, Phrase.tokens, List.cons_append, List.append_assoc,
    List.nil_append, List.cons.injEq] at h hca
  case bound => exact hca h.1
  case null => exact hca h.1
  case escaped => exact hca h.1
  case between c o =>
    replace h := h.2
    cases first with
    | group first' rest' =>
      simp only [Phrase.tokens, List.cons_append, List.cons.injEq] at h
      exact hca h.1
    | atom b =>
      cases b <;> simp only [Phrase.tokens, tokens, List.cons_append, List.nil_append,
        List.cons.injEq] at h
      case null => exact absurd h.2.2.1 (by decide)
      case between => exact hca h.1
      case escaped => exact (Dialect.escapeSuffix_ne hd).2 .and h.2.2.2.1.symm
      case bound =>
        -- `( column BETWEEN ? AND` may open a group as well, but no phrase goes on with `?`.
        replace h := h.2.2.2
        cases rest with
        | done =>
          simp only [Tail.tokens, List.nil_append, List.cons.injEq] at h
          exact absurd h.1 (by decide)
        | more k next rest' =>
          obtain ⟨t, u, ht, hne⟩ := Phrase.tokens_eq_cons hd hrest.1
          simp only [Tail.tokens, ht, List.cons_append, List.cons.injEq] at h
          exact hne h.2.1.symm

theorem Tail.head?_ne (hd : d ∈ Dialect.known) (t : Tail) (r : List Text) :
    (t.tokens d ++ (")" : Text) :: r).head? ≠ some d.escapeSuffix := by
  have hne := Dialect.escapeSuffix_ne hd
  cases t with
  | done => simpa [Tail.tokens] using hne.1.symm
  | more k next rest => simpa [Tail.tokens] using (hne.2 k).symm

mutual

theorem Phrase.tokens_append_inj (hd : d ∈ Dialect.known) : ∀ (p q : Phrase) (r s : List Text),
    p.Valid d → q.Valid d → r.head? ≠ some d.escapeSuffix → s.head? ≠ some d.escapeSuffix →
      p.tokens d ++ r = q.tokens d ++ s → p = q ∧ r = s
  | .atom a, .atom b, r, s, hp, hq, hr, hs, h => by
    obtain ⟨rfl, rfl⟩ := Atom.tokens_append_inj hd hp hq hr hs h
    exact ⟨rfl, rfl⟩
  | .atom a, .group first rest, r, s, hp, hq, _, _, h =>
    absurd h (Atom.tokens_append_ne hd hp hq)
  | .group first rest, .atom b, r, s, hp, hq, _, _, h =>
    absurd h.symm (Atom.tokens_append_ne hd hq hp)
  | .group first rest, .group first' rest', r, s, hp, hq, _, _, h => by
    simp only [Phrase.tokens, List.cons_append, List.append_assoc, List.nil_append,
      List.cons.injEq, true_and] at h
    obtain ⟨rfl, hrest⟩ := Phrase.tokens_append_inj hd first first' _ _ hp.1 hq.1
      (Tail.head?_ne hd rest r) (Tail.head?_ne hd rest' s) h
    obtain ⟨rfl, rfl⟩ := Tail.tokens_append_inj hd rest rest' r s hp.2 hq.2 hrest
    exact ⟨rfl, rfl⟩

theorem Tail.tokens_append_inj (hd : d ∈ Dialect.known) : ∀ (t u : Tail) (r s : List Text),
    t.Valid d → u.Valid d → t.tokens d ++ (")" : Text) :: r = u.tokens d ++ (")" : Text) :: s →
      t = u ∧ r = s
  | .done, .done, r, s, _, _, h => by
    simpa [Tail.tokens] using h
  | .done, .more k next rest, r, s, _, _, h => by
    simp only [Tail.tokens, List.nil_append, List.cons_append, List.cons.injEq] at h
    exact absurd h.1 (by cases k <;> decide)
  | .more k next rest, .done, r, s, _, _, h => by
    simp only [Tail.tokens, List.nil_append, List.cons_append, List.cons.injEq] at h
    exact absurd h.1 (by cases k <;> decide)
  | .more k next rest, .more k' next' rest', r, s, ht, hu, h => by
    simp only [Tail.tokens, List.cons_append, List.append_assoc, List.cons.injEq] at h
    obtain ⟨hk, h⟩ := h
    obtain rfl := Connector.text_injective hk
    obtain ⟨rfl, hrest⟩ := Phrase.tokens_append_inj hd next next' _ _ ht.1 hu.1
      (Tail.head?_ne hd rest r) (Tail.head?_ne hd rest' s) h
    obtain ⟨rfl, rfl⟩ := Tail.tokens_append_inj hd rest rest' r s ht.2 hu.2 hrest
    exact ⟨rfl, rfl⟩

end

/-- Some tokens have at most one derivation. -/
theorem Phrase.Derives.unique (hd : d ∈ Dialect.known) {p q : Phrase} {tokens : List Text}
    (hp : p.Derives d tokens) (hq : q.Derives d tokens) : p = q := by
  have h : p.tokens d ++ [] = q.tokens d ++ [] := by rw [hp.2, hq.2]
  exact (Phrase.tokens_append_inj hd p q [] [] hp.1 hq.1 (by simp) (by simp) h).1

end

end Paging
