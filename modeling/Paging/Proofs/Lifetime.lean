import Paging.Paginator

/-! How long entries live. The entries that a store can still serve are those that have not
expired; this module says what each operation makes of them, on the store itself and through a
connection that works. -/
namespace Paging.Cache

namespace Entry

theorem isLive_lasting {now later : Int} {text : Text} {ttl : Option Int} :
    (lasting now text ttl).isLive later = true ↔ ∀ t ∈ ttl, t = 0 ∨ later < now + t := by
  cases ttl with
  | none => simp [isLive, lasting]
  | some t =>
    by_cases ht : t = 0
    · simp [isLive, lasting, Option.filter, ht]
    · simp [isLive, lasting, Option.filter, ht]

theorem isLive_of_le {e : Entry} {now later : Int} (h : now ≤ later)
    (hlive : e.isLive later = true) : e.isLive now = true := by
  obtain ⟨text, expires⟩ := e
  cases expires with
  | none => rfl
  | some t =>
    have hlater : later < t := by simpa [isLive] using hlive
    simp [isLive]
    omega

end Entry

namespace Store

/-- The entry under a key, unless it has expired. -/
def kept? (s : Store) (key : String) : Option Entry := (s.find? key).filter (Entry.isLive s.now)

theorem live?_eq (s : Store) (key : String) : s.live? key = (s.kept? key).map Entry.text := rfl

theorem kept?_eq_some {s : Store} {key : String} {e : Entry} :
    s.kept? key = some e ↔ s.find? key = some e ∧ e.isLive s.now = true :=
  Option.filter_eq_some_iff

/-! ### What operations leave -/

theorem lookup_put (key : String) (e : Entry) (es : List (String × Entry)) (key' : String) :
    (put key e es).lookup key' = if key' = key then some e else es.lookup key' := by
  by_cases h : key' = key
  · rw [h, if_pos rfl, lookup_put_self]
  rw [if_neg h]
  induction es with
  | nil =>
    have hne : (key' == key) = false := by simpa using h
    simp [put, List.lookup_cons, hne]
  | cons x es ih =>
    obtain ⟨k, w⟩ := x
    rw [put]
    by_cases hk : k = key
    · have hne : (key' == key) = false := by simpa using h
      simp [hk, List.lookup_cons, hne]
    · simp [hk, List.lookup_cons, ih]

theorem lookup_filter (keep : String → Bool) (es : List (String × Entry)) (key : String) :
    (es.filter fun x => keep x.1).lookup key = if keep key then es.lookup key else none := by
  induction es with
  | nil => simp
  | cons x es ih =>
    obtain ⟨k, w⟩ := x
    by_cases hkey : key = k
    · subst hkey
      by_cases hkeep : keep key = true
      · simp [hkeep]
      · simp [hkeep, ih]
    · have hne : (key == k) = false := by simpa using hkey
      by_cases hkeep : keep k = true
      · simp [hkeep, List.lookup_cons, hne, ih]
      · simp [hkeep, List.lookup_cons, hne, ih]

@[simp] theorem settle_now (s : Store) (key : String) : (s.settle key).now = s.now := by
  unfold settle
  split
  · split <;> rfl
  · rfl

@[simp] theorem set_now (s : Store) (key : String) (text : Text) (ttl : Option Int) :
    (s.set key text ttl).now = s.now := rfl

@[simp] theorem clearUnder_now (s : Store) (label : String) :
    (s.clearUnder label).now = s.now := rfl

@[simp] theorem kept?_settle (s : Store) (key key' : String) :
    (s.settle key).kept? key' = s.kept? key' := by
  unfold settle
  split
  · rename_i e he
    by_cases hlive : e.isLive s.now = true
    · rw [if_pos hlive]
    · rw [if_neg hlive]
      have hfind : (s.erase key).find? key' = if key' != key then s.find? key' else none :=
        lookup_filter (fun k => k != key) s.entries key'
      have hnow : (s.erase key).now = s.now := rfl
      rw [kept?, hfind, hnow, kept?]
      by_cases hkey : key' = key
      · subst hkey
        rw [he, Option.filter_some, if_neg hlive, if_neg (by simp), Option.filter_none]
      · rw [if_pos (by simpa using hkey)]
  · rfl

theorem find?_set (s : Store) (key : String) (text : Text) (ttl : Option Int) (key' : String) :
    (s.set key text ttl).find? key' =
      if key' = key then some (.lasting s.now text ttl) else s.find? key' :=
  lookup_put key _ s.entries key'

theorem kept?_set_self {s : Store} {key : String} {text : Text} {ttl : Option Int} {e : Entry} :
    (s.set key text ttl).kept? key = some e ↔
      e = .lasting s.now text ttl ∧ e.isLive s.now = true := by
  rw [kept?_eq_some, find?_set, if_pos rfl, set_now, Option.some.injEq, eq_comm]

theorem kept?_set_of_ne {s : Store} {key : String} {text : Text} {ttl : Option Int} {key' : String}
    (h : key' ≠ key) : (s.set key text ttl).kept? key' = s.kept? key' := by
  rw [kept?, find?_set, if_neg h, set_now, kept?]

theorem kept?_clearUnder (s : Store) (label key : String) :
    (s.clearUnder label).kept? key = if isUnder label key then none else s.kept? key := by
  have hfind : (s.clearUnder label).find? key = if !isUnder label key then s.find? key else none :=
    lookup_filter (fun k => !isUnder label k) s.entries key
  rw [kept?, hfind, clearUnder_now]
  by_cases hunder : isUnder label key = true
  · simp [hunder]
  · simp [hunder, kept?]

@[simp] theorem kept?_clearAll (s : Store) (key : String) : s.clearAll.kept? key = none :=
  rfl

/-- As time passes entries only expire. -/
theorem kept?_advance {s : Store} {seconds : Int} (h : 0 ≤ seconds) {key : String} {e : Entry} :
    (s.advance seconds).kept? key = some e ↔
      s.kept? key = some e ∧ e.isLive (s.now + seconds) = true := by
  have hfind : (s.advance seconds).find? key = s.find? key := rfl
  have hnow : (s.advance seconds).now = s.now + seconds := rfl
  rw [kept?_eq_some, kept?_eq_some, hfind, hnow]
  constructor
  · rintro ⟨he, hlater⟩
    exact ⟨⟨he, Entry.isLive_of_le (by omega) hlater⟩, hlater⟩
  · rintro ⟨⟨he, -⟩, hlater⟩
    exact ⟨he, hlater⟩

end Store

/-! ### Through a connection that works -/

def Adapter.Works (a : Adapter) : Prop := ∀ n op about, a.outage n op about = none

/-- The connection after an operation that was carried out. -/
def Adapter.next (a : Adapter) (s : Store) : Adapter := { a with asked := a.asked + 1, store := s }

theorem Adapter.Works.next {a : Adapter} (h : a.Works) (s : Store) : (a.next s).Works := h

theorem Adapter.Works.attempt {α : Type} {a : Adapter} (h : a.Works) (op : Operation)
    (about : Option String) (act : Store → α × Store) :
    a.attempt op about act = (.ok (act a.store).1, a.next (act a.store).2) := by
  rw [Adapter.attempt, h]
  rfl

/-- The cache works: its connection does, entries are kept for `ttl` seconds, and this is the
store. -/
structure Gateway.Holds (g : Gateway) (ttl : Option Int) (s : Store) : Prop where
  ttl : g.ttl = ttl
  adapter : ∃ a, g.adapter = some a ∧ a.store = s ∧ a.Works

namespace Gateway.Holds

variable {g : Gateway} {ttl : Option Int} {s : Store}

theorem enabled (h : g.Holds ttl s) : g.enabled = true := by
  obtain ⟨-, a, ha, -⟩ := h
  rw [Gateway.enabled, ha]
  rfl

theorem note (h : g.Holds ttl s) (ns : List Notice) : (g.note ns).Holds ttl s :=
  ⟨h.ttl, h.adapter⟩

theorem tell (h : g.Holds ttl s) (level : Level) (text : Text) :
    (g.tell level text).Holds ttl s := h.note _

theorem withAdapter (h : g.Holds ttl s) {a : Adapter} (ha : a.Works) :
    (g.withAdapter a).Holds ttl a.store :=
  ⟨h.ttl, a, rfl, rfl, ha⟩

theorem after_attempt (h : g.Holds ttl s) {a : Adapter} (hs : a.store = s) (ha : a.Works)
    (what : String) (op : Operation) (about : Option String) (act : Store → Unit × Store) :
    (g.after what (a.attempt op about act)).Holds ttl (act s).2 := by
  rw [ha.attempt, hs]
  exact h.withAdapter (ha.next (act s).2)

theorem write (h : g.Holds ttl s) {key : String} (hkey : key ≠ "") (text : Text) :
    (g.write key text).Holds ttl (s.set key text ttl) := by
  obtain ⟨a, hadapter, hs, ha⟩ := h.adapter
  have hkey' : ¬ key.isEmpty = true := by simpa using hkey
  unfold Gateway.write
  rw [hadapter]
  dsimp only
  rw [if_neg hkey', h.ttl]
  exact h.after_attempt hs ha _ .set (some key) fun s => ((), s.set key text ttl)

theorem write_empty (h : g.Holds ttl s) (text : Text) : (g.write "" text).Holds ttl s := by
  obtain ⟨a, hadapter, -⟩ := h.adapter
  rw [Gateway.write, hadapter]
  exact h

theorem clearAll (h : g.Holds ttl s) : g.clearAll.Holds ttl s.clearAll := by
  obtain ⟨a, hadapter, hs, ha⟩ := h.adapter
  unfold Gateway.clearAll
  rw [hadapter]
  exact h.after_attempt hs ha _ .clearAll none fun s => ((), s.clearAll)

theorem clearUnder (h : g.Holds ttl s) {label : String} (hlabel : label ≠ "") :
    (g.clearUnder label).Holds ttl (s.clearUnder label) := by
  obtain ⟨a, hadapter, hs, ha⟩ := h.adapter
  have hlabel' : ¬ label.isEmpty = true := by simpa using hlabel
  unfold Gateway.clearUnder
  rw [hadapter]
  dsimp only
  rw [if_neg hlabel']
  exact h.after_attempt hs ha _ .clearUnder (some label) fun s => ((), s.clearUnder label)

theorem clearUnder_empty (h : g.Holds ttl s) : (g.clearUnder "").Holds ttl s := by
  obtain ⟨a, hadapter, -⟩ := h.adapter
  rw [Gateway.clearUnder, hadapter]
  exact h

theorem read (h : g.Holds ttl s) {key : String} (hkey : key ≠ "") :
    (g.read key).1 = (s.live? key).filter (fun t => !t.isEmpty) ∧
      (g.read key).2.Holds ttl (s.settle key) := by
  obtain ⟨a, hadapter, hs, ha⟩ := h.adapter
  have hkey' : ¬ key.isEmpty = true := by simpa using hkey
  have hchecked : a.isValid key = (.ok (s.live? key).isSome, a.next (s.settle key)) := by
    rw [Adapter.isValid, ha.attempt, hs]
    rfl
  unfold Gateway.read
  rw [hadapter]
  dsimp only
  rw [if_neg hkey', hchecked]
  dsimp only
  cases hlive : s.live? key with
  | none => exact ⟨rfl, h.withAdapter (ha.next (s.settle key))⟩
  | some text =>
    -- A text that lives is not dropped by the first look.
    have hsettle : s.settle key = s := by
      obtain ⟨e, he, -⟩ := Option.map_eq_some_iff.mp hlive
      obtain ⟨hfind, helive⟩ := Store.kept?_eq_some.mp he
      rw [Store.settle, hfind]
      exact if_pos helive
    have hgot : (a.next s).get key = (.ok (some text), (a.next s).next s) := by
      have hget : s.get key = (some text, s) := by rw [Store.get, hlive, hsettle]
      rw [Adapter.get, (ha.next s).attempt]
      show (Except.ok (s.get key).1, (a.next s).next (s.get key).2) = _
      rw [hget]
    have hsome : (some text).isSome = true := rfl
    rw [hsome, hsettle]
    dsimp only
    rw [hgot]
    exact ⟨rfl, h.withAdapter ((ha.next s).next s)⟩

theorem getPage (h : g.Holds ttl s) {key : String} (hkey : key ≠ "") :
    (∀ page, (g.getPage key).1 = some page ↔
      ∃ text, s.live? key = some text ∧ Page.ofJson text = .ok page) ∧
      (g.getPage key).2.Holds ttl (s.settle key) := by
  obtain ⟨htext, hread⟩ := h.read hkey
  -- The empty text is passed over, but no page is read from it either.
  have hempty (page : Page) : Page.ofJson "" ≠ .ok page := by
    have herror : Page.ofJson "" = .error [⟨[], .jsonInvalid⟩] := by rfl
    rw [herror]
    simp
  unfold Gateway.getPage
  split
  · rename_i g' hg
    rw [hg] at htext hread
    refine ⟨fun page => ⟨nofun, ?_⟩, hread.tell _ _⟩
    rintro ⟨text, hlive, hpage⟩
    rw [hlive, eq_comm, Option.filter_some] at htext
    by_cases htext' : text = ""
    · exact absurd (htext' ▸ hpage) (hempty page)
    · simp [htext'] at htext
  · rename_i text g' hg
    rw [hg] at htext hread
    have hlive : s.live? key = some text := (Option.filter_eq_some_iff.mp htext.symm).1
    cases hpage : Page.ofJson text with
    | ok page => exact ⟨by simp [hlive, hpage], hread.tell _ _⟩
    | error problems => exact ⟨by simp [hlive, hpage], hread.tell _ _⟩

theorem getCount (h : g.Holds ttl s) {key : String} (hkey : key ≠ "") :
    (∀ n, (g.getCount key).1 = some n ↔
      ∃ text, s.live? key = some text ∧ Decimal.readInt? text = some n) ∧
      (g.getCount key).2.Holds ttl (s.settle key) := by
  obtain ⟨htext, hread⟩ := h.read hkey
  have hempty (n : Int) : Decimal.readInt? "" ≠ some n := by
    have hnone : Decimal.readInt? "" = none := by rfl
    simp [hnone]
  unfold Gateway.getCount
  split
  · rename_i g' hg
    rw [hg] at htext hread
    refine ⟨fun n => ⟨nofun, ?_⟩, hread⟩
    rintro ⟨text, hlive, hn⟩
    rw [hlive, eq_comm, Option.filter_some] at htext
    by_cases htext' : text = ""
    · exact absurd (htext' ▸ hn) (hempty n)
    · simp [htext'] at htext
  · rename_i text g' hg
    rw [hg] at htext hread
    have hlive : s.live? key = some text := (Option.filter_eq_some_iff.mp htext.symm).1
    cases hn : Decimal.readInt? text with
    | some n => exact ⟨by simp [hlive, hn], hread⟩
    | none => exact ⟨by simp [hlive, hn], hread.tell _ _⟩

end Gateway.Holds

end Paging.Cache
