import Paging.Proofs.Glob

/-! What clearing deletes on a key-value server. A scan promises to show every key of its pattern
that is there throughout, perhaps more than once, in as many batches as it likes. Each batch is
deleted before the next one is asked for, and what is gone in the end are the keys of the pattern,
no others. They are the keys that start with the label unless a sign of patterns occurs in it. -/
namespace Paging.Cache.Remote

open Glob Text.Utf8

variable {σ δ : Type}

/-! ### A server that keeps its promises -/

def named? : Value → Option (List UInt8)
  | .bytes b => some b
  | .text s => some (encode s)
  | _ => none

def names (vs : List Value) : List (List UInt8) := vs.filterMap named?

/-- A round of a scan from a cursor gives the next cursor and a batch. -/
def Gives (server : Server σ) (pattern : String) (cursor : Int) (s : σ) (next : Int)
    (vs : List Value) (s' : σ) : Prop :=
  server (.scan (.int cursor) pattern) s = (.ok (.tuple [.int next, .list vs]), s')

/-- Between two rounds keys may be deleted. -/
inductive Between (server : Server σ) : σ → σ → Prop
  | nothing (s : σ) : Between server s s
  | deletion (vs : List Value) (s : σ) : Between server s (server (.delete vs) s).2

/-- A key is there in every round of a scan from a cursor to its end, and no batch shows it. -/
inductive Misses (server : Server σ) (held : σ → List UInt8 → Option δ) (pattern : String)
    (key : List UInt8) : Int → σ → Prop
  | last {cursor : Int} {s s' : σ} {vs : List Value} (hheld : held s key ≠ none)
    (hround : Gives server pattern cursor s 0 vs s') (hkey : key ∉ names vs) :
    Misses server held pattern key cursor s
  | more {cursor next : Int} {s s' s'' : σ} {vs : List Value} (hheld : held s key ≠ none)
    (hround : Gives server pattern cursor s next vs s') (hnext : next ≠ 0) (hkey : key ∉ names vs)
    (hbetween : Between server s' s'') (hrest : Misses server held pattern key next s'') :
    Misses server held pattern key cursor s

inductive Ends (server : Server σ) (pattern : String) : Int → σ → Prop
  | round {cursor : Int} {s : σ}
    (h : ∀ next vs s' s'', Gives server pattern cursor s next vs s' → next ≠ 0 →
      Between server s' s'' → Ends server pattern next s'') :
    Ends server pattern cursor s

/-- A server that refuses nothing. `held` is what it holds under each key. A scan leaves this alone,
comes to its end, shows keys of its pattern only and misses none that is there throughout; a
deletion takes away the keys it is given. -/
structure Honest (server : Server σ) (held : σ → List UInt8 → Option δ) : Prop where
  scan : ∀ pattern cursor s, ∃ next vs s', Gives server pattern cursor s next vs s' ∧
    held s' = held s ∧ ∀ v ∈ vs, ∃ key, named? v = some key ∧ accepts pattern key = true
  delete : ∀ vs s, (∀ v ∈ vs, (named? v).isSome) → ∃ n s',
    server (.delete vs) s = (.ok (.int n), s') ∧
      ∀ key, held s' key = if key ∈ names vs then none else held s key
  complete : ∀ pattern key s, accepts pattern key = true →
    ¬ Misses server held pattern key 0 s
  ends : ∀ pattern s, Ends server pattern 0 s

section

variable {server : Server σ} {held : σ → List UInt8 → Option δ} {pattern : String} {cursor : Int}
  {s : σ}

theorem Misses.there {key : List UInt8} (h : Misses server held pattern key cursor s) :
    held s key ≠ none := by
  cases h with
  | last hheld => exact hheld
  | more hheld => exact hheld

/-! ### One round -/

/-- The keys of a batch are deleted before the next round. -/
theorem Honest.erase (h : Honest server held) (operation : String) (label : Option String)
    {vs : List Value} (hvs : ∀ v ∈ vs, (named? v).isSome) (s : σ) :
    ∃ n s', Remote.erase server operation label vs s = (.ok n, s') ∧ Between server s s' ∧
      ∀ key, held s' key = if key ∈ names vs then none else held s key := by
  cases vs with
  | nil => exact ⟨0, s, rfl, .nothing s, by simp [names]⟩
  | cons v vs =>
    obtain ⟨n, s', hdelete, hheld⟩ := h.delete (v :: vs) s hvs
    have hbetween : Between server s (server (.delete (v :: vs)) s).2 := .deletion (v :: vs) s
    rw [hdelete] at hbetween
    refine ⟨n, s', ?_, hbetween, hheld⟩
    simp [Remote.erase, send, hdelete, Except.mapError, countOf]

/-- A round shows a batch and deletes it. -/
theorem Honest.round (h : Honest server held) (operation : String) (label : Option String)
    (pattern : String) (cursor : Int) (s : σ) :
    ∃ next vs n s' s'', Remote.round server operation label pattern (.int cursor) s =
        (.ok (.int next, n), s'') ∧
      Gives server pattern cursor s next vs s' ∧ Between server s' s'' ∧
      (∀ key ∈ names vs, accepts pattern key = true) ∧
      ∀ key, held s'' key = if key ∈ names vs then none else held s key := by
  obtain ⟨next, vs, s', hround, hsame, hvs⟩ := h.scan pattern cursor s
  obtain ⟨n, s'', herase, hbetween, hheld⟩ := h.erase operation label
    (fun v hv => by
      obtain ⟨key, hkey, -⟩ := hvs v hv
      simp [hkey]) s'
  refine ⟨next, vs, n, s', s'', ?_, hround, hbetween, ?_, ?_⟩
  · have hkeys : batchKeys (.list vs) = .ok vs := by
      cases vs <;> rfl
    have hround' : server (.scan (.int cursor) pattern) s =
      (.ok (.tuple [.int next, .list vs]), s') := hround
    simp [Remote.round, send, hround', Except.mapError, batch, Value.elements?, hkeys, herase,
      bind, Except.bind, Except.map]
  · intro key hkey
    obtain ⟨v, hv, hnamed⟩ := List.mem_filterMap.mp hkey
    obtain ⟨key', hkey', haccepts⟩ := hvs v hv
    obtain rfl : key' = key := Option.some.inj (hkey'.symm.trans hnamed)
    exact haccepts
  · intro key
    rw [hheld, hsame]

/-! ### All rounds -/

def Arrives (server : Server σ) (operation : String) (label : Option String) (pattern : String)
    (cursor : Int) (s s' : σ) : Prop :=
  ∃ enough, ∀ rounds, enough ≤ rounds → ∀ deleted,
    ∃ n, scanDelete server operation label pattern rounds (.int cursor) deleted s = (.ok n, s')

/-- Where the scan comes to its end, nothing is deleted but keys of the pattern, and those that
are left were missed. -/
theorem Honest.arrives (h : Honest server held) (operation : String) (label : Option String)
    (hends : Ends server pattern cursor s) :
    ∃ s', Arrives server operation label pattern cursor s s' ∧
      (∀ key, held s' key = held s key ∨ held s' key = none ∧ accepts pattern key = true) ∧
      ∀ key, held s' key ≠ none → accepts pattern key = true →
        Misses server held pattern key cursor s := by
  induction hends with
  | @round cursor s hnext ih =>
    obtain ⟨next, vs, n, s', s'', hround, hgives, hbetween, haccepts, hheld⟩ :=
      h.round operation label pattern cursor s
    have hkept (key : List UInt8) :
        held s'' key = held s key ∨ held s'' key = none ∧ accepts pattern key = true := by
      rw [hheld]
      by_cases hkey : key ∈ names vs
      · exact Or.inr ⟨if_pos hkey, haccepts key hkey⟩
      · exact Or.inl (if_neg hkey)
    have hshown {key : List UInt8} (hleft : held s'' key ≠ none) :
        held s key ≠ none ∧ key ∉ names vs := by
      rw [hheld] at hleft
      by_cases hkey : key ∈ names vs
      · exact absurd (if_pos hkey) hleft
      · exact ⟨by rwa [if_neg hkey] at hleft, hkey⟩
    by_cases hend : next = 0
    · subst hend
      refine ⟨s'', ⟨1, ?_⟩, hkept, ?_⟩
      · intro rounds hrounds deleted
        obtain ⟨rounds, rfl⟩ := Nat.exists_eq_add_of_le' hrounds
        exact ⟨deleted + n, by simp [scanDelete, hround, isEnd]⟩
      · intro key hleft _
        obtain ⟨hbefore, hkey⟩ := hshown hleft
        exact .last hbefore hgives hkey
    · obtain ⟨s₁, ⟨enough, harrives⟩, hrest, hmissed⟩ := ih next vs s' s'' hgives hend hbetween
      refine ⟨s₁, ⟨enough + 1, ?_⟩, ?_, ?_⟩
      · intro rounds hrounds deleted
        obtain ⟨rounds, rfl⟩ := Nat.exists_eq_add_of_le' hrounds
        obtain ⟨m, hm⟩ := harrives (rounds + enough) (by omega) (deleted + n)
        exact ⟨m, by simpa [scanDelete, hround, isEnd, hend, ← Nat.add_assoc] using hm⟩
      · intro key
        rcases hrest key with hsame | hgone
        · rw [hsame]
          exact hkept key
        · exact Or.inr hgone
      · intro key hleft haccept
        have hmisses := hmissed key hleft haccept
        obtain ⟨hbefore, hkey⟩ := hshown hmisses.there
        exact .more hbefore hgives hend hkey hbetween hmisses

/-- A scan from the start deletes the keys of its pattern and leaves all others as they are. -/
theorem Honest.scanDelete (h : Honest server held) (operation : String) (label : Option String)
    (pattern : String) (s : σ) :
    ∃ s', Arrives server operation label pattern 0 s s' ∧
      ∀ key, held s' key = if accepts pattern key then none else held s key := by
  obtain ⟨s', harrives, hkept, hmissed⟩ := h.arrives operation label (h.ends pattern s)
  refine ⟨s', harrives, fun key => ?_⟩
  by_cases haccept : accepts pattern key = true
  · rw [if_pos haccept]
    by_contra hleft
    exact h.complete pattern key s haccept (hmissed key hleft haccept)
  · rw [if_neg haccept]
    exact (hkept key).resolve_right fun hgone => haccept hgone.2

end

/-- Clearing on an honest server, whatever it holds, deletes the keys of a pattern, the label behind
the space with a star behind it, and leaves every other key with what is under it; so does clearing
all of a space that is not empty. These are the keys that start with the text, and hence those that
the store in memory clears, if no star, question mark, opening bracket or backslash occurs in the
text. If one does, the pattern stands for other keys than these. -/
theorem clears_pattern {server : Server σ} {held : σ → List UInt8 → Option δ}
    (h : Honest server held) (space label : String) (s : σ) :
    (∃ s', (∃ enough, ∀ rounds, enough ≤ rounds →
        ∃ n, clearUnder server space rounds label s = (.ok n, s')) ∧
      (∀ key, held s' key =
        if accepts (patternUnder (space ++ label)) key then none else held s key) ∧
      ((∀ c ∈ (space ++ label).toList, isSign c = false) → ∀ key : String,
        held s' (encode (space ++ key : String)) =
          if Store.isUnder label key then none else held s (encode (space ++ key : String)))) ∧
    (space ≠ "" → ∃ s', (∃ enough, ∀ rounds, enough ≤ rounds →
        clearAll server space rounds s = (.ok (), s')) ∧
      ∀ key, held s' key = if accepts (patternUnder space) key then none else held s key) ∧
    ∀ text, (∀ key, accepts (patternUnder text) key = true ↔ encode text <+: key) ↔
      ∀ c ∈ text.toList, isSign c = false := by
  refine ⟨?_, ?_, accepts_iff_plain⟩
  · obtain ⟨s', ⟨enough, harrives⟩, hheld⟩ :=
      h.scanDelete "clear_prefix" (some label) (patternUnder (space ++ label)) s
    refine ⟨s', ⟨enough, fun rounds hrounds => harrives rounds hrounds 0⟩, hheld, ?_⟩
    intro hplain key
    have hunder : accepts (patternUnder (space ++ label)) (encode (space ++ key : String)) = true ↔
        Store.isUnder label key = true := by
      rw [(accepts_iff_plain (space ++ label)).mpr hplain, encode_prefix_append_iff]
    rw [hheld]
    exact if_congr hunder rfl rfl
  · intro hspace
    obtain ⟨s', ⟨enough, harrives⟩, hheld⟩ :=
      h.scanDelete "clear_all" none (patternUnder space) s
    refine ⟨s', ⟨enough, fun rounds hrounds => ?_⟩, hheld⟩
    obtain ⟨n, hn⟩ := harrives rounds hrounds 0
    simp [clearAll, hspace, hn, Except.map]

/-! ### A server with two buckets -/

def buckets : Server (List (List UInt8))
  | .scan cursor pattern, ks =>
    let first := isEnd cursor
    let shown := ks.filter fun k => accepts pattern k && (k.length % 2 == 0) == first
    (.ok (.tuple [.int (if first then 1 else 0), .list (shown.map .bytes)]), ks)
  | .delete vs, ks =>
    (.ok (.int (ks.filter fun k => k ∈ names vs).length), ks.filter fun k => k ∉ names vs)
  | .flush, _ => (.ok (.bool true), [])
  | _, ks => (.ok .null, ks)

/-- What such a server holds under a key: that it is there. -/
def isThere (ks : List (List UInt8)) (key : List UInt8) : Option Unit :=
  if key ∈ ks then some () else none

theorem mem_of_isThere {ks : List (List UInt8)} {key : List UInt8}
    (h : isThere ks key ≠ none) : key ∈ ks := by
  by_contra hkey
  exact h (if_neg hkey)

theorem names_bytes (ks : List (List UInt8)) : names (ks.map .bytes) = ks := by
  induction ks with
  | nil => rfl
  | cons k ks ih => simpa [names, named?] using ih

theorem gives_buckets {pattern : String} {cursor next : Int} {s s' : List (List UInt8)}
    {vs : List Value} (h : Gives buckets pattern cursor s next vs s') :
    next = (if cursor = 0 then 1 else 0) ∧ ∀ key ∈ s, accepts pattern key = true →
      (key.length % 2 = 0 ↔ cursor = 0) → key ∈ names vs := by
  simp only [Gives, buckets, isEnd, Prod.mk.injEq, Except.ok.injEq, Value.tuple.injEq,
    List.cons.injEq, Value.int.injEq, Value.list.injEq, and_true] at h
  obtain ⟨⟨hnext, rfl⟩, -⟩ := h
  refine ⟨by simp [← hnext], ?_⟩
  intro key hkey haccepts hbucket
  rw [names_bytes, List.mem_filter]
  refine ⟨hkey, ?_⟩
  by_cases hcursor : cursor = 0 <;> simp_all

theorem honest_buckets : Honest buckets isThere where
  scan pattern cursor s := by
    refine ⟨_, _, s, rfl, rfl, ?_⟩
    intro v hv
    obtain ⟨k, hk, rfl⟩ := List.mem_map.mp hv
    simp at hk
    exact ⟨k, rfl, hk.2.1⟩
  delete vs s _ := by
    refine ⟨_, _, rfl, ?_⟩
    intro key
    by_cases hkey : key ∈ names vs <;> simp [isThere, hkey]
  complete pattern key s haccepts h := by
    cases h with
    | last _ hround _ =>
      obtain ⟨hnext, -⟩ := gives_buckets hround
      simp at hnext
    | more hheld hround _ hkey hbetween hrest =>
      obtain ⟨rfl, hfirst⟩ := gives_buckets hround
      have hodd : key.length % 2 ≠ 0 := by
        intro heven
        exact hkey (hfirst key (mem_of_isThere hheld) haccepts (by simp [heven]))
      cases hrest with
      | last hheld' hround' hkey' =>
        obtain ⟨-, hsecond⟩ := gives_buckets hround'
        exact hkey' (hsecond key (mem_of_isThere hheld') haccepts (by simp [hodd]))
      | more _ hround' hnext' _ _ _ =>
        obtain ⟨hnext, -⟩ := gives_buckets hround'
        simp at hnext
        exact absurd hnext hnext'
  ends pattern s := by
    refine .round fun next vs s' s'' hround _ _ => .round fun next' vs' _ _ hround' hnext' _ => ?_
    obtain ⟨rfl, -⟩ := gives_buckets hround
    obtain ⟨hnext, -⟩ := gives_buckets hround'
    exact absurd (by simpa using hnext) hnext'

theorem clears_pattern_of_question_mark :
    Honest buckets isThere ∧ Store.isUnder "a?" "ab:1" = false ∧
      ∃ s', (∃ enough, ∀ rounds, enough ≤ rounds → ∃ n,
          clearUnder buckets "pg:" rounds "a?" [encode "pg:ab:1", encode "pg:b:1"] =
            (.ok n, s')) ∧
        isThere s' (encode "pg:ab:1") = none ∧ isThere s' (encode "pg:b:1") = some () := by
  obtain ⟨⟨s', harrives, hheld, -⟩, -⟩ :=
    clears_pattern honest_buckets "pg:" "a?" [encode "pg:ab:1", encode "pg:b:1"]
  refine ⟨honest_buckets, by decide, s', harrives, ?_, ?_⟩
  · rw [hheld, if_pos (by decide)]
  · rw [hheld, if_neg (by decide)]
    decide

end Paging.Cache.Remote
