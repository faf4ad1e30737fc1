import Mathlib.Data.List.Induction
import Mathlib.Data.List.Nodup
import Mathlib.Logic.Function.Basic
import Paging.Proofs.Lifetime

/-! The store as a map with lifetimes. In the map an entry is gone as soon as its time is up; the
store drops it when it is next looked at. What the store shows is this map, whatever happens to
it, so reading changes nothing that can be seen, and what is found under a key is what was last
put there. -/
namespace Paging.Cache

/-- What can happen to a store. -/
inductive Event
  | set (key : String) (text : Text) (ttl : Option Int)
  | get (key : String)
  | isValid (key : String)
  | clearUnder (label : String)
  | clearAll
  | advance (seconds : ℕ)

namespace Event

def isEffect : Event → Bool
  | .get _ | .isValid _ => false
  | _ => true

/-- Does the event end what was kept under a key, whether it was still alive or not? -/
def Ends (key : String) : Event → Prop
  | .set key' _ _ => key' = key
  | .clearUnder label => Store.isUnder label key = true
  | .clearAll => True
  | .get _ | .isValid _ | .advance _ => False

def seconds : Event → ℕ
  | .advance seconds => seconds
  | _ => 0

end Event

def clock (start : Int) (es : List Event) : Int :=
  es.foldl (fun now e => now + e.seconds) start

namespace Store

def apply (s : Store) : Event → Store
  | .set key text ttl => s.set key text ttl
  | .get key => (s.get key).2
  | .isValid key => (s.isValid key).2
  | .clearUnder label => s.clearUnder label
  | .clearAll => s.clearAll
  | .advance seconds => s.advance seconds

def after (start : Int) (es : List Event) : Store := es.foldl apply { now := start }

end Store

/-- A map of the entries that live. -/
@[ext] structure TimedMap where
  entries : String → Option Entry := fun _ => none
  now : Int

namespace TimedMap

def prune (m : TimedMap) : TimedMap :=
  { m with entries := fun key => (m.entries key).filter (Entry.isLive m.now) }

def set (m : TimedMap) (key : String) (text : Text) (ttl : Option Int) : TimedMap :=
  prune { m with entries := Function.update m.entries key (some (.lasting m.now text ttl)) }

def clearUnder (m : TimedMap) (label : String) : TimedMap :=
  { m with entries := fun key => if Store.isUnder label key then none else m.entries key }

def clearAll (m : TimedMap) : TimedMap := { now := m.now }

def advance (m : TimedMap) (seconds : ℕ) : TimedMap := prune { m with now := m.now + seconds }

/-- What an event makes of the map: reading makes nothing of it. -/
def apply (m : TimedMap) : Event → TimedMap
  | .set key text ttl => m.set key text ttl
  | .get _ | .isValid _ => m
  | .clearUnder label => m.clearUnder label
  | .clearAll => m.clearAll
  | .advance seconds => m.advance seconds

def after (start : Int) (es : List Event) : TimedMap := es.foldl apply { now := start }

end TimedMap

/-! ### The store shows the map -/

namespace Store

/-- The map that a store shows: its entries but those that have expired. -/
def shown (s : Store) : TimedMap where
  entries := s.kept?
  now := s.now

theorem get_eq (s : Store) (key : String) : (s.get key).1 = (s.shown.entries key).map Entry.text :=
  rfl

theorem isValid_eq (s : Store) (key : String) : (s.isValid key).1 = (s.get key).1.isSome := rfl

theorem shown_settle (s : Store) (key : String) : (s.settle key).shown = s.shown := by
  ext1
  · funext key'
    exact kept?_settle s key key'
  · exact settle_now s key

theorem shown_set (s : Store) (key : String) (text : Text) (ttl : Option Int) :
    (s.set key text ttl).shown = s.shown.set key text ttl := by
  ext1
  · funext key'
    by_cases h : key' = key
    · subst h
      simp [shown, TimedMap.set, TimedMap.prune, kept?, find?_set]
    · simp [shown, TimedMap.set, TimedMap.prune, kept?, find?_set, h, Option.filter_filter]
  · rfl

theorem shown_clearUnder (s : Store) (label : String) :
    (s.clearUnder label).shown = s.shown.clearUnder label := by
  ext1
  · funext key
    exact kept?_clearUnder s label key
  · rfl

theorem shown_advance (s : Store) (seconds : ℕ) :
    (s.advance seconds).shown = s.shown.advance seconds := by
  ext1
  · funext key
    apply Option.ext
    intro e
    have hkept : (s.advance seconds).kept? key = some e ↔
        s.kept? key = some e ∧ e.isLive (s.now + seconds) = true := kept?_advance (by simp)
    simp [shown, TimedMap.advance, TimedMap.prune, hkept, Option.filter_eq_some_iff]
  · rfl

/-- One step: the store changes what it shows just as the map changes. -/
theorem shown_apply (s : Store) (e : Event) : (s.apply e).shown = s.shown.apply e := by
  cases e with
  | set key text ttl => exact shown_set s key text ttl
  | get key => exact shown_settle s key
  | isValid key => exact shown_settle s key
  | clearUnder label => exact shown_clearUnder s label
  | clearAll => rfl
  | advance seconds => exact shown_advance s seconds

/-- All steps: the store shows the map after any events. -/
theorem shown_after (start : Int) (es : List Event) :
    (after start es).shown = TimedMap.after start es :=
  (List.foldl_hom shown fun s e => (shown_apply s e).symm).symm

end Store

/-! ### What the map holds -/

section

variable {start : Int} {es : List Event} {key : String} {e : Entry}

theorem clock_concat (start : Int) (es : List Event) (x : Event) :
    clock start (es ++ [x]) = clock start es + x.seconds := by
  simp [clock]

namespace TimedMap

theorem after_concat (start : Int) (es : List Event) (x : Event) :
    after start (es ++ [x]) = (after start es).apply x := by
  simp [after]

theorem apply_now (m : TimedMap) (x : Event) : (m.apply x).now = m.now + x.seconds := by
  cases x <;> simp [apply, Event.seconds, set, clearUnder, clearAll, advance, prune]

theorem after_now (start : Int) (es : List Event) : (after start es).now = clock start es := by
  induction es using List.reverseRecOn with
  | nil => simp [after, clock]
  | append_singleton es x ih => rw [after_concat, apply_now, ih, clock_concat]

/-- Reading makes nothing of the map, so only the other events count. -/
theorem after_filter_isEffect (start : Int) (es : List Event) :
    after start (es.filter Event.isEffect) = after start es := by
  induction es using List.reverseRecOn with
  | nil => rfl
  | append_singleton es x ih =>
    by_cases hx : x.isEffect = true
    · rw [List.filter_append, List.filter_cons_of_pos hx, List.filter_nil, after_concat,
        after_concat, ih]
    · have hread : (after start es).apply x = after start es := by
        cases x <;> simp_all [Event.isEffect, apply]
      simp [List.filter_append, hx, after_concat, hread, ih]

theorem entries_set {m : TimedMap} {key' : String} {text : Text} {ttl : Option Int} :
    (m.set key' text ttl).entries key = some e ↔
      (if key = key' then e = .lasting m.now text ttl else m.entries key = some e) ∧
        e.isLive m.now = true := by
  by_cases h : key = key'
  · simpa [set, prune, h, Option.filter_eq_some_iff] using fun _ => eq_comm
  · simp [set, prune, h, Option.filter_eq_some_iff]

theorem entries_advance {m : TimedMap} {seconds : ℕ} :
    (m.advance seconds).entries key = some e ↔
      m.entries key = some e ∧ e.isLive (m.now + seconds) = true := by
  simp [advance, prune, Option.filter_eq_some_iff]

/-- The entry is the last that the events set under the key, and no event ended it. -/
def Stands (start : Int) (es : List Event) (key : String) (e : Entry) : Prop :=
  ∃ past text ttl since, es = past ++ .set key text ttl :: since ∧
    e = .lasting (clock start past) text ttl ∧ ∀ x ∈ since, ¬ x.Ends key

theorem not_stands_nil : ¬ Stands start [] key e := by
  rintro ⟨past, text, ttl, since, hes, -⟩
  simp at hes

theorem stands_concat {x : Event} :
    Stands start (es ++ [x]) key e ↔
      (∃ text ttl, x = .set key text ttl ∧ e = .lasting (clock start es) text ttl) ∨
        (¬ x.Ends key ∧ Stands start es key e) := by
  constructor
  · rintro ⟨past, text, ttl, since, hes, rfl, hsince⟩
    rcases List.eq_nil_or_concat since with rfl | ⟨since, y, rfl⟩
    · obtain ⟨rfl, hx⟩ := List.append_inj' hes rfl
      cases hx
      exact Or.inl ⟨text, ttl, rfl, rfl⟩
    · rw [List.concat_eq_append] at hes hsince
      rw [← List.cons_append, ← List.append_assoc] at hes
      obtain ⟨rfl, hx⟩ := List.append_inj' hes rfl
      cases hx
      refine Or.inr ⟨hsince x (by simp), past, text, ttl, since, rfl, rfl, ?_⟩
      intro z hz
      exact hsince z (by simp [hz])
  · rintro (⟨text, ttl, rfl, rfl⟩ | ⟨hx, past, text, ttl, since, rfl, rfl, hsince⟩)
    · exact ⟨es, text, ttl, [], rfl, rfl, by simp⟩
    · refine ⟨past, text, ttl, since ++ [x], by simp, rfl, ?_⟩
      intro y hy
      rcases List.mem_append.mp hy with hy | hy
      · exact hsince y hy
      · exact List.mem_singleton.mp hy ▸ hx

/-- The map holds what stands and lives. -/
theorem entries_after :
    (after start es).entries key = some e ↔
      Stands start es key e ∧ e.isLive (clock start es) = true := by
  induction es using List.reverseRecOn with
  | nil => simp [after, not_stands_nil]
  | append_singleton es x ih =>
    rw [after_concat, stands_concat, clock_concat]
    cases x with
    | get key' => simpa [apply, Event.Ends, Event.seconds] using ih
    | isValid key' => simpa [apply, Event.Ends, Event.seconds] using ih
    | clearAll => simp [apply, clearAll, Event.Ends]
    | clearUnder label =>
      by_cases h : Store.isUnder label key = true
      · simp [apply, clearUnder, Event.Ends, h]
      · simpa [apply, clearUnder, Event.Ends, Event.seconds, h] using ih
    | set key' text ttl =>
      by_cases h : key = key'
      · simp [apply, entries_set, after_now, Event.Ends, Event.seconds, h]
      · have h' : key' ≠ key := fun e => h e.symm
        simp [apply, entries_set, after_now, Event.Ends, Event.seconds, h, h', ih]
    | advance seconds =>
      have hlater (h : e.isLive (clock start es + seconds) = true) :
          e.isLive (clock start es) = true := Entry.isLive_of_le (by omega) h
      have hadvance : ((after start es).apply (.advance seconds)).entries key = some e ↔
          (Stands start es key e ∧ e.isLive (clock start es) = true) ∧
            e.isLive (clock start es + seconds) = true := by
        rw [apply, entries_advance, ih, after_now]
      rw [hadvance]
      constructor
      · rintro ⟨⟨hstands, -⟩, hlive⟩
        exact ⟨Or.inr ⟨id, hstands⟩, hlive⟩
      · rintro ⟨⟨text, ttl, hset, -⟩ | ⟨-, hstands⟩, hlive⟩
        · cases hset
        · exact ⟨⟨hstands, hlater hlive⟩, hlive⟩

end TimedMap

end

/-! ### The keys of the store -/

namespace Store

theorem map_fst_put (key : String) (e : Entry) (es : List (String × Entry)) :
    (put key e es).map Prod.fst =
      if key ∈ es.map Prod.fst then es.map Prod.fst else es.map Prod.fst ++ [key] := by
  induction es with
  | nil => rfl
  | cons x es ih =>
    rw [put]
    by_cases hx : x.1 = key
    · simp [hx]
    · have hx' : key ≠ x.1 := fun e => hx e.symm
      rw [if_neg hx, List.map_cons, ih]
      by_cases hmem : key ∈ es.map Prod.fst
      · simp [hmem]
      · simp [hmem, hx']

theorem nodup_keys_filter {s : Store} (h : s.keys.Nodup) (keep : String × Entry → Bool) :
    ((s.entries.filter keep).map Prod.fst).Nodup :=
  h.sublist (List.filter_sublist.map Prod.fst)

theorem nodup_keys_settle {s : Store} (h : s.keys.Nodup) (key : String) :
    (s.settle key).keys.Nodup := by
  unfold settle
  split
  · split
    · exact h
    · exact nodup_keys_filter h _
  · exact h

theorem nodup_keys_apply {s : Store} (h : s.keys.Nodup) (e : Event) : (s.apply e).keys.Nodup := by
  cases e with
  | set key text ttl =>
    show ((put key _ s.entries).map Prod.fst).Nodup
    rw [map_fst_put]
    by_cases hmem : key ∈ s.entries.map Prod.fst
    · rw [if_pos hmem]
      exact h
    · rw [if_neg hmem]
      exact List.Nodup.append h (List.nodup_singleton key) (by simpa using hmem)
  | get key => exact nodup_keys_settle h key
  | isValid key => exact nodup_keys_settle h key
  | clearUnder label => exact nodup_keys_filter h _
  | clearAll => exact List.nodup_nil
  | advance seconds => exact h

theorem nodup_keys_after (start : Int) (es : List Event) : (after start es).keys.Nodup := by
  induction es using List.reverseRecOn with
  | nil => exact List.nodup_nil
  | append_singleton es e ih =>
    rw [after, List.foldl_append]
    exact nodup_keys_apply ih e

theorem mem_keys_of_find? {s : Store} {key : String} {e : Entry} (h : s.find? key = some e) :
    key ∈ s.keys := by
  obtain ⟨before, behind, hes, -⟩ := List.lookup_eq_some_iff.mp h
  have hmem : (key, e) ∈ s.entries := by simp [hes]
  exact List.mem_map_of_mem hmem

/-- A store that drops expired entries only when it looks at them answers as a map in which they
vanish at once. After any events a text is found under a key just if the latest event that set the
key gave it this text, no later event cleared the key, and its lifetime is missing or zero or not
over yet; it is over from the second in which it ends. A key is valid just if a text is found under
it, what is found does not depend on what was read before, no key is listed twice, and every key
with a text is listed. -/
theorem refines_timed_map (start : Int) (es : List Event) :
    (after start es).shown = TimedMap.after start es ∧
    (∀ key text, ((after start es).get key).1 = some text ↔
      ∃ past ttl since, es = past ++ .set key text ttl :: since ∧
        (∀ e ∈ since, ¬ e.Ends key) ∧
          ∀ t ∈ ttl, t = 0 ∨ clock start es < clock start past + t) ∧
    (∀ key, ((after start es).isValid key).1 = ((after start es).get key).1.isSome) ∧
    (∀ es', es'.filter Event.isEffect = es.filter Event.isEffect → ∀ key,
      ((after start es').get key).1 = ((after start es).get key).1 ∧
        ((after start es').isValid key).1 = ((after start es).isValid key).1) ∧
    (after start es).keys.Nodup ∧
    ∀ key, ((after start es).get key).1.isSome → key ∈ (after start es).keys := by
  have hget (es : List Event) (key : String) :
      ((after start es).get key).1 = ((TimedMap.after start es).entries key).map Entry.text := by
    rw [get_eq, shown_after]
  refine ⟨shown_after start es, ?_, fun key => rfl, ?_, nodup_keys_after start es, ?_⟩
  · intro key text
    simp only [hget, Option.map_eq_some_iff, TimedMap.entries_after]
    constructor
    · rintro ⟨_, ⟨⟨past, text, ttl, since, hes, rfl, hsince⟩, hlive⟩, rfl⟩
      exact ⟨past, ttl, since, hes, hsince, Entry.isLive_lasting.mp hlive⟩
    · rintro ⟨past, ttl, since, hes, hsince, hlive⟩
      exact ⟨_, ⟨⟨past, text, ttl, since, hes, rfl, hsince⟩, Entry.isLive_lasting.mpr hlive⟩, rfl⟩
  · intro es' hes' key
    have hsame : TimedMap.after start es' = TimedMap.after start es := by
      rw [← TimedMap.after_filter_isEffect, hes', TimedMap.after_filter_isEffect]
    rw [isValid_eq, isValid_eq, hget, hget, hsame]
    exact ⟨rfl, rfl⟩
  · intro key hkey
    obtain ⟨text, htext⟩ := Option.isSome_iff_exists.mp hkey
    obtain ⟨e, he, -⟩ := Option.map_eq_some_iff.mp htext
    exact mem_keys_of_find? (kept?_eq_some.mp he).1

/-- An entry is gone in the second in which its time ends, though it is still listed. -/
example :
    let s := after 10 [.set "a" "x" (some 5), .advance 5]
    (s.get "a").1 = none ∧ s.keys = ["a"] := by
  decide

end Store

end Paging.Cache
