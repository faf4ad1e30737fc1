import Paging.Proofs.History
import Paging.Proofs.TimedMap

/-! Clears that are put off. Until a drain they change nothing; a drain carries all of them out, in
the order in which they were asked for, and takes exactly the entries that one of them covers. A
clear that fails leaves a notice and keeps no other from being carried out. -/
namespace Paging

/-! ### The connection

Whatever a paginator does, it keeps its connection to the store, and with it the outages. -/

namespace Cache

@[simp] theorem Adapter.outage_attempt {α : Type} (a : Adapter) (op : Operation)
    (about : Option String) (act : Store → α × Store) :
    (a.attempt op about act).2.outage = a.outage := by
  unfold Adapter.attempt
  split <;> rfl

namespace Gateway

def outage? (g : Gateway) : Option (Nat → Operation → Option String → Option String) :=
  g.adapter.map Adapter.outage

variable {g : Gateway} {a : Adapter}

theorem outage?_of_adapter (h : g.adapter = some a) : g.outage? = some a.outage := by
  simp [outage?, h]

@[simp] theorem outage?_note (g : Gateway) (ns : List Notice) : (g.note ns).outage? = g.outage? :=
  rfl

@[simp] theorem outage?_tell (g : Gateway) (level : Level) (text : String) :
    (g.tell level text).outage? = g.outage? := rfl

@[simp] theorem outage?_after {α : Type} (g : Gateway) (what : String)
    (r : Except String α × Adapter) : (g.after what r).outage? = some r.2.outage := by
  obtain ⟨result, a⟩ := r
  cases result <;> rfl

@[simp] theorem outage?_read (g : Gateway) (key : String) :
    (g.read key).2.outage? = g.outage? := by
  unfold Gateway.read
  split
  · rfl
  · rename_i a ha
    have hg : g.outage? = some a.outage := outage?_of_adapter ha
    have hchecked : (a.isValid key).2.outage = a.outage := a.outage_attempt _ _ _
    have hgot : ((a.isValid key).2.get key).2.outage = a.outage :=
      (Adapter.outage_attempt _ _ _ _).trans hchecked
    split
    · rfl
    · dsimp only
      split
      · split
        · rw [hg, ← hgot]
          rfl
        · rw [outage?_after, hgot, hg]
      · rw [outage?_after, hchecked, hg]

@[simp] theorem outage?_write (g : Gateway) (key : String) (text : Text) :
    (g.write key text).outage? = g.outage? := by
  unfold Gateway.write
  split
  · rfl
  · rename_i a ha
    have hg : g.outage? = some a.outage := outage?_of_adapter ha
    split
    · rfl
    · rw [outage?_after, hg]
      exact congrArg some (a.outage_attempt _ _ _)

@[simp] theorem outage?_getPage (g : Gateway) (key : String) :
    (g.getPage key).2.outage? = g.outage? := by
  have hread := outage?_read g key
  unfold Gateway.getPage
  split <;> rename_i hg <;> rw [hg] at hread
  · exact hread
  · split <;> exact hread

@[simp] theorem outage?_getCount (g : Gateway) (key : String) :
    (g.getCount key).2.outage? = g.outage? := by
  have hread := outage?_read g key
  unfold Gateway.getCount
  split <;> rename_i hg <;> rw [hg] at hread
  · exact hread
  · split <;> exact hread

end Gateway
end Cache

theorem Outcome.outage?_total (cfg : Config) (ex : Executor) (q : Query) (g : Cache.Gateway) :
    (total cfg ex q g).cache.outage? = g.outage? := by
  have hget := g.outage?_getCount (Cache.countKey ex.name q)
  unfold total
  split
  · dsimp only
    split <;> rename_i hg <;> rw [hg] at hget
    · exact hget
    · split
      · exact (Cache.Gateway.outage?_write _ _ _).trans hget
      · exact hget
  · rfl

theorem Outcome.outage?_rows (cfg : Config) (ex : Executor) (q : Query) (fields : List Text)
    (g : Cache.Gateway) : (rows cfg ex q fields g).cache.outage? = g.outage? := by
  rw [← outage?_total cfg ex q g]
  unfold rows
  dsimp only
  split <;> rfl

namespace Answer

theorem outage?_ofQuery (cfg : Config) (ex : Executor) (d : Descriptor) (q : Query)
    (fields : List Text) (key : String) (g : Cache.Gateway) :
    (ofQuery cfg ex d q fields key g).cache.outage? = g.outage? := by
  rw [← Outcome.outage?_rows cfg ex q fields g]
  unfold ofQuery
  dsimp only
  split
  · exact Cache.Gateway.outage?_write _ _ _
  · rfl
  · rfl

theorem outage?_ofKey (cfg : Config) (ex : Executor) (d : Descriptor) (q : Query)
    (fields : List Text) (key : String) (g : Cache.Gateway) :
    (ofKey cfg ex d q fields key g).cache.outage? = g.outage? := by
  have hget := g.outage?_getPage key
  unfold ofKey
  split
  · split <;> rename_i hg <;> rw [hg] at hget
    · exact hget
    · exact (outage?_ofQuery cfg ex d q fields key _).trans hget
  · exact outage?_ofQuery cfg ex d q fields key g

theorem outage?_ofRequest (cfg : Config) (ex : Executor) (r : Request) (label : String)
    (allowed : List Text) (g : Cache.Gateway) :
    (ofRequest cfg ex r label allowed g).cache.outage? = g.outage? := by
  unfold ofRequest
  dsimp only
  split
  · rfl
  · exact outage?_ofKey _ _ _ _ _ _ _

end Answer

/-! ### Carrying clears out -/

namespace Clear

instance (key : String) : (c : Clear) → Decidable (c.Covers key)
  | .under label => inferInstanceAs (Decidable (label ≠ "" ∧ Cache.Store.isUnder label key = true))
  | .all => inferInstanceAs (Decidable True)

def operation : Clear → Cache.Operation
  | .under _ => .clearUnder
  | .all => .clearAll

def about : Clear → Option String
  | .under label => some label
  | .all => none

def complaint : Clear → String
  | .under label => "Cache clear failed for prefix " ++ label
  | .all => "Cache clear_all failed"

def warning (c : Clear) (message : String) : Notice :=
  ⟨.warning, Cache.Gateway.source, c.complaint ++ ": " ++ message⟩

def failure? (a : Cache.Adapter) (c : Clear) (n : ℕ) : Option String :=
  a.outage n c.operation c.about

def carried (a : Cache.Adapter) (cs : List Clear) : List Clear :=
  ((cs.zipIdx a.asked).filter fun x => (x.1.failure? a x.2).isNone).map Prod.fst

def warnings (a : Cache.Adapter) (cs : List Clear) : List Notice :=
  (cs.zipIdx a.asked).filterMap fun x => (x.1.failure? a x.2).map x.1.warning

end Clear

/-- The store without the entries that some clears cover; the others stay as they are. -/
def Cache.Store.without (s : Store) (cs : List Clear) : Store :=
  { s with entries := s.entries.filter fun x => cs.all fun c => ¬ c.Covers x.1 }

def Cache.Adapter.cleared (a : Adapter) (cs : List Clear) : Adapter :=
  { a with asked := a.asked + cs.length, store := a.store.without (Clear.carried a cs) }

namespace Clear

open Cache

variable {g : Gateway} {a : Adapter}

@[simp] theorem without_nil (s : Store) : s.without [] = s := by
  simp [Store.without]

theorem without_append (s : Store) (cs cs' : List Clear) :
    s.without (cs ++ cs') = (s.without cs).without cs' := by
  simp [Store.without, List.filter_filter, Bool.and_comm]

theorem without_perm (s : Store) {cs cs' : List Clear} (h : cs.Perm cs') :
    s.without cs = s.without cs' := by
  have hall (key : String) : (cs.all fun c => ¬ c.Covers key) = cs'.all fun c => ¬ c.Covers key :=
    h.all_eq
  simp only [Store.without, hall]

theorem without_under (s : Store) {label : String} (h : label ≠ "") :
    s.without [.under label] = s.clearUnder label := by
  simp [Store.without, Store.clearUnder, Covers, h]

theorem without_all (s : Store) : s.without [.all] = s.clearAll := by
  simp [Store.without, Store.clearAll, Covers]

theorem carried_cons (a : Adapter) (c : Clear) (cs : List Clear) :
    carried a (c :: cs) = carried a [c] ++ carried (a.cleared [c]) cs := by
  rw [carried, List.zipIdx_cons, ← List.singleton_append, List.filter_append, List.map_append]
  rfl

theorem warnings_cons (a : Adapter) (c : Clear) (cs : List Clear) :
    warnings a (c :: cs) = warnings a [c] ++ warnings (a.cleared [c]) cs := by
  rw [warnings, List.zipIdx_cons, ← List.singleton_append, List.filterMap_append]
  rfl

theorem cleared_nil (a : Adapter) : a.cleared [] = a := by
  simp [Adapter.cleared, carried]

theorem cleared_cons (a : Adapter) (c : Clear) (cs : List Clear) :
    a.cleared (c :: cs) = (a.cleared [c]).cleared cs := by
  simp [Adapter.cleared, carried_cons a c cs, without_append, Nat.add_comm, Nat.add_left_comm]

theorem perform_eq_after (hg : g.adapter = some a) {c : Clear} (hc : c ≠ .under "") :
    c.perform g = g.after c.complaint
      (a.attempt c.operation c.about fun s => ((), s.without [c])) := by
  cases c with
  | all =>
    simp only [without_all]
    rw [perform, Gateway.clearAll, hg]
    rfl
  | under label =>
    have hlabel : label ≠ "" := fun e => hc (by rw [e])
    have hempty : ¬ label.isEmpty = true := by simpa using hlabel
    simp only [without_under _ hlabel]
    rw [perform, Gateway.clearUnder, hg]
    dsimp only
    rw [if_neg hempty]
    rfl

theorem perform_eq (hg : g.adapter = some a) {c : Clear} (hc : c ≠ .under "") :
    c.perform g = { g with adapter := some (a.cleared [c]), log := g.log ++ warnings a [c] } := by
  have hfailure : a.outage a.asked c.operation c.about = c.failure? a a.asked := rfl
  rw [perform_eq_after hg hc, Adapter.attempt, hfailure]
  cases h : c.failure? a a.asked with
  | none =>
    simp [Gateway.after, Gateway.withAdapter, Adapter.cleared, carried, warnings, h]
  | some message =>
    simp [Gateway.after, Gateway.withAdapter, Gateway.tell, Gateway.note, Adapter.cleared, carried,
      warnings, warning, h]

theorem foldl_perform_eq (hg : g.adapter = some a) {cs : List Clear} (hcs : .under "" ∉ cs) :
    cs.foldl perform g =
      { g with adapter := some (a.cleared cs), log := g.log ++ warnings a cs } := by
  induction cs generalizing g a with
  | nil => simp [cleared_nil, ← hg, warnings]
  | cons c cs ih =>
    simp only [List.mem_cons, not_or] at hcs
    rw [List.foldl_cons, perform_eq hg (Ne.symm hcs.1), ih rfl hcs.2, cleared_cons a c cs,
      warnings_cons a c cs, List.append_assoc]

/-! ### Which clears fail -/

theorem carried_eq_filter (h : ∀ n m op about, a.outage n op about = a.outage m op about)
    (cs : List Clear) : carried a cs = cs.filter fun c => (c.failure? a 0).isNone := by
  have hsame (x : Clear × ℕ) : x.1.failure? a x.2 = x.1.failure? a 0 := h x.2 0 _ _
  have hfst : (cs.zipIdx a.asked).map Prod.fst = cs := List.zipIdx_map_fst _ _
  conv_rhs => rw [← hfst, List.filter_map]
  simp only [carried, hsame]
  rfl

theorem carried_of_works (h : a.Works) (cs : List Clear) : carried a cs = cs := by
  have hnone (c : Clear) : c.failure? a 0 = none := h 0 _ _
  rw [carried_eq_filter (fun n m op about => (h n op about).trans (h m op about).symm)]
  simp [hnone]

theorem cleared_store_perm (h : ∀ n m op about, a.outage n op about = a.outage m op about)
    {cs cs' : List Clear} (hcs : cs.Perm cs') : (a.cleared cs).store = (a.cleared cs').store := by
  apply without_perm
  rw [carried_eq_filter h, carried_eq_filter h]
  exact hcs.filter _

@[simp] theorem outage?_perform (g : Gateway) (c : Clear) : (c.perform g).outage? = g.outage? := by
  by_cases hc : c = .under ""
  · subst hc
    rw [perform, Gateway.clearUnder]
    split <;> rfl
  cases hg : g.adapter with
  | none =>
    cases c with
    | under label => rw [perform, Gateway.clearUnder, hg]
    | all => rw [perform, Gateway.clearAll, hg]
  | some a =>
    rw [perform_eq hg hc, Gateway.outage?_of_adapter hg]
    rfl

@[simp] theorem outage?_foldl_perform (cs : List Clear) (g : Gateway) :
    (cs.foldl perform g).outage? = g.outage? := by
  induction cs generalizing g with
  | nil => rfl
  | cons c cs ih => rw [List.foldl_cons, ih, outage?_perform]

end Clear

/-! ### Turns -/

namespace Paginator

/-- What happens to a paginator and to its store: a step of the paginator itself, or an event in
the store, which others may use as well. -/
inductive Turn
  | step (s : Step)
  | access (e : Cache.Event)

def access (p : Paginator) (e : Cache.Event) : Paginator :=
  { p with cache := { p.cache with
      adapter := p.cache.adapter.map fun a => { a with store := a.store.apply e } } }

def turn (p : Paginator) : Turn → Paginator
  | .step s => p.step s
  | .access e => p.access e

def play (p : Paginator) (ts : List Turn) : Paginator := ts.foldl turn p

namespace Turn

def putsOff : Turn → Bool
  | .step (.clear _ now) => !now
  | .step (.clearAll now) => !now
  | _ => false

/-- The clears that wait for a drain after a turn. -/
def leaves (waiting : List Clear) : Turn → List Clear
  | .step s => s.leaves waiting
  | .access _ => waiting

end Turn

def awaiting (ts : List Turn) : List Clear := ts.foldl Turn.leaves []

section

variable {p : Paginator} {cfg : Config} {waiting : List Clear}
  {outage : Nat → Cache.Operation → Option String → Option String}

theorem play_concat (p : Paginator) (ts : List Turn) (t : Turn) :
    p.play (ts ++ [t]) = (p.play ts).turn t := by
  simp [play]

theorem play_append (p : Paginator) (ts ts' : List Turn) :
    p.play (ts ++ ts') = (p.play ts).play ts' := by
  simp [play]

theorem awaiting_concat (ts : List Turn) (t : Turn) :
    awaiting (ts ++ [t]) = t.leaves (awaiting ts) := by
  simp [awaiting]

/-! ### Before the drain -/

/-- The paginator as if nothing had been put off. -/
def unscheduled (p : Paginator) : Paginator := { p with scheduled := [] }

theorem unscheduled_turn (p : Paginator) {t : Turn} (ht : t ≠ .step .drain) :
    (p.unscheduled.turn t).unscheduled = (p.turn t).unscheduled := by
  cases t with
  | access e => rfl
  | step s =>
    cases s with
    | drain => exact absurd rfl ht
    | clear labels now => cases now <;> rfl
    | clearAll now => cases now <;> rfl
    | _ => rfl

theorem unscheduled_turn_of_putsOff (p : Paginator) {t : Turn} (ht : t.putsOff = true) :
    (p.turn t).unscheduled = p.unscheduled := by
  cases t with
  | access e => simp [Turn.putsOff] at ht
  | step s =>
    cases s with
    | clear labels now => cases now <;> first | rfl | simp [Turn.putsOff] at ht
    | clearAll now => cases now <;> first | rfl | simp [Turn.putsOff] at ht
    | _ => simp [Turn.putsOff] at ht

theorem unscheduled_play (p : Paginator) {ts : List Turn} (hts : ∀ t ∈ ts, t ≠ .step .drain) :
    (p.play ts).unscheduled = (p.play (ts.filter fun t => !t.putsOff)).unscheduled := by
  induction ts using List.reverseRecOn with
  | nil => rfl
  | append_singleton ts t ih =>
    have ht : t ≠ .step .drain := hts t (by simp)
    have ih := ih fun t ht => hts t (by simp [ht])
    rw [play_concat, ← unscheduled_turn _ ht, ih, unscheduled_turn _ ht, List.filter_append]
    by_cases hputs : t.putsOff = true
    · rw [unscheduled_turn_of_putsOff _ hputs]
      simp [hputs]
    · simp [hputs, play_concat]

/-! ### What waits -/

/-- The paginator has these settings and this connection, and these clears wait for a drain. -/
structure Waits (cfg : Config) (outage : Nat → Cache.Operation → Option String → Option String)
    (waiting : List Clear) (p : Paginator) : Prop where
  config : p.config = cfg
  outage : p.cache.outage? = some outage
  scheduled : p.scheduled = waiting

theorem Waits.enabled (h : Waits cfg outage waiting p) : p.cache.enabled = true := by
  have houtage := h.outage
  cases ha : p.cache.adapter with
  | none => simp [Cache.Gateway.outage?, ha] at houtage
  | some a => simp [Cache.Gateway.enabled, ha]

theorem Waits.clears (h : Waits cfg outage waiting p) (labels : List String) :
    p.clears labels = Step.under labels := by
  rw [Paginator.clears, if_pos h.enabled, Step.under]

theorem Waits.clearsAll (h : Waits cfg outage waiting p) : p.clearsAll = [.all] := by
  rw [Paginator.clearsAll, if_pos h.enabled]

theorem Waits.perform (h : Waits cfg outage waiting p) (cs : List Clear) :
    Waits cfg outage waiting (p.perform cs) :=
  ⟨h.config, (Clear.outage?_foldl_perform cs p.cache).trans h.outage, h.scheduled⟩

theorem Waits.schedule (h : Waits cfg outage waiting p) (cs : List Clear) :
    Waits cfg outage (waiting ++ cs) (p.schedule cs) :=
  ⟨h.config, h.outage, congrArg (· ++ cs) h.scheduled⟩

def Turn.forget (now : Bool) : Option (List String) → Turn
  | some labels => .step (.clear labels now)
  | none => .step (.clearAll now)

def forgotten : Option (List String) → List Clear
  | some labels => Step.under labels
  | none => [.all]

theorem turn_forget (h : Waits cfg outage waiting p) (now : Bool) (call : Option (List String)) :
    p.turn (.forget now call) = p.forget (forgotten call) now := by
  cases call with
  | none => rw [forgotten, ← h.clearsAll]; rfl
  | some labels => rw [forgotten, ← h.clears]; rfl

theorem Waits.turn (h : Waits cfg outage waiting p) (t : Turn) :
    Waits cfg outage (t.leaves waiting) (p.turn t) := by
  have houtage := h.outage
  cases t with
  | access e =>
    refine ⟨h.config, ?_, h.scheduled⟩
    simpa [Paginator.turn, access, Cache.Gateway.outage?, Function.comp_def] using houtage
  | step s =>
    cases s with
    | respond i =>
      exact ⟨h.config, (Answer.outage?_ofRequest _ _ _ _ _ _).trans houtage, h.scheduled⟩
    | advance seconds =>
      refine ⟨h.config, ?_, h.scheduled⟩
      simpa [Paginator.turn, step, advance, Cache.Gateway.outage?, Function.comp_def] using houtage
    | clear labels now =>
      show Waits _ _ _ (p.turn (.forget now (some labels)))
      rw [turn_forget h]
      cases now with
      | true => exact h.perform _
      | false => exact h.schedule _
    | clearAll now =>
      show Waits _ _ _ (p.turn (.forget now none))
      rw [turn_forget h]
      cases now with
      | true => exact h.perform _
      | false => exact h.schedule _
    | drain => exact ⟨h.config, (h.perform p.scheduled).outage, rfl⟩

theorem waits_play (cfg : Config) (a : Cache.Adapter) (ts : List Turn) :
    Waits cfg a.outage (awaiting ts) ((ofConfig cfg (some a)).play ts) := by
  induction ts using List.reverseRecOn with
  | nil => exact ⟨rfl, rfl, rfl⟩
  | append_singleton ts t ih =>
    rw [play_concat, awaiting_concat]
    exact ih.turn t

theorem under_empty_notMem_leaves (h : .under "" ∉ waiting) (t : Turn) :
    .under "" ∉ t.leaves waiting := by
  cases t with
  | access e => exact h
  | step s =>
    cases s with
    | clear labels now => cases now <;> simp [Turn.leaves, Step.leaves, Step.under, h]
    | clearAll now => cases now <;> simp [Turn.leaves, Step.leaves, h]
    | drain => simp [Turn.leaves, Step.leaves]
    | _ => exact h

theorem under_empty_notMem_awaiting (ts : List Turn) : .under "" ∉ awaiting ts := by
  induction ts using List.reverseRecOn with
  | nil => simp [awaiting]
  | append_singleton ts t ih =>
    rw [awaiting_concat]
    exact under_empty_notMem_leaves ih t

/-! ### The drain -/

theorem drain_eq {a : Cache.Adapter} (ha : p.cache.adapter = some a)
    (hempty : .under "" ∉ p.scheduled) :
    p.drain = { p with
      cache := { p.cache with
        adapter := some (a.cleared p.scheduled)
        log := p.cache.log ++ Clear.warnings a p.scheduled }
      scheduled := [] } := by
  rw [drain, Paginator.perform, Clear.foldl_perform_eq ha hempty]

theorem perform_perform (p : Paginator) (cs cs' : List Clear) :
    (p.perform cs).perform cs' = p.perform (cs ++ cs') := by
  simp [Paginator.perform]

theorem schedule_schedule (p : Paginator) (cs cs' : List Clear) :
    (p.schedule cs).schedule cs' = p.schedule (cs ++ cs') := by
  simp [Paginator.schedule]

theorem play_forget_now (h : Waits cfg outage waiting p) (calls : List (Option (List String))) :
    p.play (calls.map (.forget true)) = p.perform (calls.flatMap forgotten) := by
  induction calls generalizing p with
  | nil => rfl
  | cons call calls ih =>
    have hcall : p.turn (.forget true call) = p.perform (forgotten call) := turn_forget h true call
    have hnext : Waits cfg outage waiting (p.turn (.forget true call)) := by
      rw [hcall]
      exact h.perform _
    rw [List.map_cons, List.flatMap_cons, ← perform_perform, ← hcall]
    exact ih hnext

theorem play_forget_later (h : Waits cfg outage waiting p) (calls : List (Option (List String))) :
    p.play (calls.map (.forget false)) = p.schedule (calls.flatMap forgotten) := by
  induction calls generalizing p waiting with
  | nil => simp [play, Paginator.schedule]
  | cons call calls ih =>
    have hcall : p.turn (.forget false call) = p.schedule (forgotten call) :=
      turn_forget h false call
    have hnext : Waits cfg outage (waiting ++ forgotten call) (p.turn (.forget false call)) := by
      rw [hcall]
      exact h.schedule _
    rw [List.map_cons, List.flatMap_cons, ← schedule_schedule, ← hcall]
    exact ih hnext

theorem play_forget (h : Waits cfg outage [] p) (calls : List (Option (List String))) :
    p.play (calls.map (.forget true)) = (p.play (calls.map (.forget false))).drain := by
  rw [play_forget_now h, play_forget_later h, drain]
  simp [Paginator.schedule, Paginator.perform, h.scheduled]

end

/-- Clears that are put off are neither lost nor do they reach too far. Whatever happens to a
paginator and its store, until a drain the cache is what it would be had nothing been put off. A
drain carries out the clears that wait, which never are those of the empty label: of the entries
that are there just those remain that no such clear covers, unless it fails, as they are and in
their order; each clear that fails leaves a notice; nothing waits any more, and another drain
changes nothing. If failing does not depend on how many operations went before, it makes no
difference in which order and when the clears were put off. What is carried out at once leaves
what it leaves when it is put off and then drained. -/
theorem background_clears (cfg : Config) (a : Cache.Adapter) :
    let start := ofConfig cfg (some a)
    (∀ past later, (∀ t ∈ later, t ≠ .step .drain) →
      (start.play (past ++ later)).cache =
        (start.play (past ++ later.filter fun t => !t.putsOff)).cache) ∧
    (∀ ts, ∃ b, (start.play ts).cache.adapter = some b ∧ b.outage = a.outage ∧
      (start.play ts).scheduled = awaiting ts ∧ .under "" ∉ awaiting ts ∧
      (start.play ts).drain = { start.play ts with
        cache := { (start.play ts).cache with
          adapter := some (b.cleared (awaiting ts))
          log := (start.play ts).cache.log ++ Clear.warnings b (awaiting ts) }
        scheduled := [] } ∧
      (a.Works → Clear.carried b (awaiting ts) = awaiting ts) ∧
      (start.play ts).drain.drain = (start.play ts).drain) ∧
    ((∀ n m op about, a.outage n op about = a.outage m op about) → ∀ past later later',
      (∀ t ∈ later, t ≠ .step .drain) → (∀ t ∈ later', t ≠ .step .drain) →
      (later.filter fun t => !t.putsOff) = later'.filter (fun t => !t.putsOff) →
      (awaiting (past ++ later)).Perm (awaiting (past ++ later')) →
      (start.play (past ++ later)).drain.cache.adapter.map Cache.Adapter.store =
        (start.play (past ++ later')).drain.cache.adapter.map Cache.Adapter.store) ∧
    ∀ ts (calls : List (Option (List String))), awaiting ts = [] →
      start.play (ts ++ calls.map (.forget true)) =
        (start.play (ts ++ calls.map (.forget false))).drain := by
  intro start
  have hbefore (past later : List Turn) (hlater : ∀ t ∈ later, t ≠ .step .drain) :
      (start.play (past ++ later)).cache =
        (start.play (past ++ later.filter fun t => !t.putsOff)).cache := by
    have hsame := congrArg Paginator.cache (unscheduled_play (start.play past) hlater)
    rw [play_append, play_append]
    exact hsame
  have hconnected (ts : List Turn) : ∃ b, (start.play ts).cache.adapter = some b ∧
      b.outage = a.outage ∧ (start.play ts).scheduled = awaiting ts := by
    have hwaits := waits_play cfg a ts
    obtain ⟨b, hb, houtage⟩ := Option.map_eq_some_iff.mp hwaits.outage
    exact ⟨b, hb, houtage, hwaits.scheduled⟩
  have hdrain (ts : List Turn) {b : Cache.Adapter} (hb : (start.play ts).cache.adapter = some b)
      (hscheduled : (start.play ts).scheduled = awaiting ts) :
      (start.play ts).drain = { start.play ts with
        cache := { (start.play ts).cache with
          adapter := some (b.cleared (awaiting ts))
          log := (start.play ts).cache.log ++ Clear.warnings b (awaiting ts) }
        scheduled := [] } := by
    rw [← hscheduled]
    exact drain_eq hb (hscheduled ▸ under_empty_notMem_awaiting ts)
  refine ⟨hbefore, ?_, ?_, ?_⟩
  · intro ts
    obtain ⟨b, hb, houtage, hscheduled⟩ := hconnected ts
    refine ⟨b, hb, houtage, hscheduled, under_empty_notMem_awaiting ts, hdrain ts hb hscheduled,
      fun hworks => Clear.carried_of_works ?_ _, rfl⟩
    intro n op about
    rw [houtage]
    exact hworks n op about
  · intro hsteady past later later' hlater hlater' hsame hperm
    obtain ⟨b, hb, houtage, hscheduled⟩ := hconnected (past ++ later)
    obtain ⟨b', hb', -, hscheduled'⟩ := hconnected (past ++ later')
    have hcache : (start.play (past ++ later)).cache = (start.play (past ++ later')).cache := by
      rw [hbefore past later hlater, hsame, ← hbefore past later' hlater']
    obtain rfl : b = b' := by
      rw [hcache, hb'] at hb
      exact (Option.some.inj hb).symm
    rw [hdrain _ hb hscheduled, hdrain _ hb' hscheduled']
    exact congrArg some (Clear.cleared_store_perm (houtage ▸ hsteady) hperm)
  · intro ts calls hempty
    have hwaits := waits_play cfg a ts
    rw [hempty] at hwaits
    rw [play_append, play_append, play_forget hwaits]

/-- An entry that was written after its label was forgotten is taken by the drain all the same. -/
example :
    ((ofConfig {} (some {})).play [.step (.clear ["users:", ""] false),
      .access (.set "users:1" "a" none), .access (.set "orders:1" "b" none),
      .step .drain]).cache.adapter.map (fun a => a.store.keys) = some ["orders:1"] := by
  decide

end Paginator

end Paging
