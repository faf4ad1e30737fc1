import Paging.Proofs.Clearing

/-! The commands of a scan. Whatever batches a server shows, one command asks for each of them, and
one deletes each that is not empty before the next is asked for. Where a command is refused, none
follows it, and what the commands before it did is not undone. -/
namespace Paging.Cache.Remote

variable {σ α β δ : Type}

/-! ### What is asked -/

/-- The replies to a scan: batches of keys with the cursors of the rounds behind them. The first
cursor that is zero is that of the last reply. -/
inductive Script
  | last (keys : List Value)
  | more (next : Int) (hnext : next ≠ 0) (keys : List Value) (rest : Script)

namespace Script

def rounds : Script → ℕ
  | last _ => 1
  | more _ _ _ rest => rest.rounds + 1

def keys : Script → List Value
  | last keys => keys
  | more _ _ keys rest => keys ++ rest.keys

def deletion : List Value → List Command
  | [] => []
  | key :: keys => [.delete (key :: keys)]

/-- The commands of a scan from a cursor. -/
def commands (pattern : String) (cursor : Int) : Script → List Command
  | last keys => .scan (.int cursor) pattern :: deletion keys
  | more next _ keys rest =>
    .scan (.int cursor) pattern :: deletion keys ++ rest.commands pattern next

end Script

def perform (server : Server σ) (commands : List Command) (s : σ) : σ :=
  commands.foldl (fun s c => (server c s).2) s

def Counts (server : Server σ) (s : σ) : List Value → Prop
  | [] => True
  | key :: keys => ∃ n, (server (.delete (key :: keys)) s).1 = .ok (.int n)

/-- A server replies to a scan from a cursor as a script says. -/
def Plays (server : Server σ) (pattern : String) : Int → Script → σ → Prop
  | cursor, .last keys, s => ∃ s', Gives server pattern cursor s 0 keys s' ∧ Counts server s' keys
  | cursor, .more next _ keys rest, s => ∃ s', Gives server pattern cursor s next keys s' ∧
      Counts server s' keys ∧
        Plays server pattern next rest (perform server (Script.deletion keys) s')

/-- The state of a server and the commands it was sent. -/
structure Watched (σ : Type) where
  state : σ
  sent : List Command

namespace Watched

/-- A server that is watched, and that refuses the commands at some places among those it is sent. A
command that is refused changes nothing. -/
def server (server : Server σ) (refuses : ℕ → Option String) : Server (Watched σ) := fun c w =>
  match refuses w.sent.length with
  | some reason => (.error reason, ⟨w.state, w.sent ++ [c]⟩)
  | none => ((server c w.state).1, ⟨(server c w.state).2, w.sent ++ [c]⟩)

def after (server : Server σ) (commands : List Command) (w : Watched σ) : Watched σ :=
  ⟨perform server commands w.state, w.sent ++ commands⟩

end Watched

/-- What an operation that has some commands to send leaves behind. If none of them is refused, all
are sent, and the result is `a`. Else the first that is refused is the last that is sent; those
before it were carried out, and the operation fails with the reason. -/
inductive Traced (server : Server σ) (refuses : ℕ → Option String) (operation : String)
    (key : Option String) (commands : List Command) (w : Watched σ) (a : α) :
    Except RemoteError α × Watched σ → Prop
  | done (hall : ∀ i < commands.length, refuses (w.sent.length + i) = none) :
      Traced server refuses operation key commands w a (.ok a, w.after server commands)
  | refused {k : ℕ} {reason : String} (hk : k < commands.length)
      (hbefore : ∀ i < k, refuses (w.sent.length + i) = none)
      (hrefused : refuses (w.sent.length + k) = some reason) :
      Traced server refuses operation key commands w a
        (.error (.refused operation key reason),
          ⟨perform server (commands.take k) w.state, w.sent ++ commands.take (k + 1)⟩)

section

variable {server : Server σ} {refuses : ℕ → Option String} {operation : String}
  {key : Option String} {w : Watched σ} {a : α} {b : β}

theorem perform_append (cs ds : List Command) (s : σ) :
    perform server (cs ++ ds) s = perform server ds (perform server cs s) :=
  List.foldl_append

theorem Gives.perform_cons {pattern : String} {cursor next : Int} {keys : List Value} {s s' : σ}
    (h : Gives server pattern cursor s next keys s') (commands : List Command) :
    perform server (.scan (.int cursor) pattern :: commands) s = perform server commands s' := by
  rw [Gives] at h
  rw [perform, List.foldl_cons, h]
  rfl

theorem Watched.after_append (cs ds : List Command) (w : Watched σ) :
    w.after server (cs ++ ds) = (w.after server cs).after server ds := by
  simp only [after, perform_append, List.append_assoc]

/-! ### One part of an operation behind the other -/

def andThen (r : Except RemoteError α × σ) (f : α → σ → Except RemoteError β × σ) :
    Except RemoteError β × σ :=
  match r with
  | (.error e, s) => (.error e, s)
  | (.ok a, s) => f a s

theorem Traced.nothing (w : Watched σ) (a : α) :
    Traced server refuses operation key [] w a (.ok a, w) := by
  have hdone : Traced server refuses operation key [] w a (.ok a, w.after server []) := .done nofun
  rwa [Watched.after, List.append_nil] at hdone

theorem Traced.map {cs : List Command} {r : Except RemoteError α × Watched σ}
    (h : Traced server refuses operation key cs w a r) (f : α → β) :
    Traced server refuses operation key cs w (f a) (r.1.map f, r.2) := by
  cases h with
  | done hall => exact .done hall
  | refused hk hbefore hrefused => exact .refused hk hbefore hrefused

/-- An operation fails where its first part fails, and goes on behind it with the second. -/
theorem Traced.bind {cs ds : List Command} {r : Except RemoteError α × Watched σ}
    (h : Traced server refuses operation key cs w a r)
    {f : α → Watched σ → Except RemoteError β × Watched σ}
    (hf : Traced server refuses operation key ds (w.after server cs) b
      (f a (w.after server cs))) :
    Traced server refuses operation key (cs ++ ds) w b (andThen r f) := by
  cases h with
  | @refused k reason hk hbefore hrefused =>
    have hk' : k < (cs ++ ds).length := by
      rw [List.length_append]
      omega
    have hfirst : Traced server refuses operation key (cs ++ ds) w b
        (.error (.refused operation key reason), ⟨perform server ((cs ++ ds).take k) w.state,
          w.sent ++ (cs ++ ds).take (k + 1)⟩) :=
      .refused hk' hbefore hrefused
    rwa [List.take_append_of_le_length hk.le, List.take_append_of_le_length hk] at hfirst
  | done hall =>
    have hlength (i : ℕ) :
        (w.after server cs).sent.length + i = w.sent.length + (cs.length + i) := by
      rw [Watched.after, List.length_append, Nat.add_assoc]
    -- Up to the place `k` behind the first part nothing is refused if this holds of the second.
    have hboth {k : ℕ} (hk : ∀ i < k, refuses ((w.after server cs).sent.length + i) = none) :
        ∀ i < cs.length + k, refuses (w.sent.length + i) = none := by
      intro i hi
      by_cases hfirst : i < cs.length
      · exact hall i hfirst
      · obtain ⟨j, rfl⟩ := Nat.exists_eq_add_of_le (Nat.le_of_not_lt hfirst)
        rw [← hlength]
        exact hk j (by omega)
    rw [andThen]
    generalize f a (w.after server cs) = r at hf
    cases hf with
    | done hrest =>
      rw [← Watched.after_append]
      exact .done (by rw [List.length_append]; exact hboth hrest)
    | @refused k reason hk hbefore hrefused =>
      rw [hlength] at hrefused
      have hk' : cs.length + k < (cs ++ ds).length := by
        rw [List.length_append]
        omega
      have hsecond : Traced server refuses operation key (cs ++ ds) w b
          (.error (.refused operation key reason),
            ⟨perform server ((cs ++ ds).take (cs.length + k)) w.state,
              w.sent ++ (cs ++ ds).take (cs.length + k + 1)⟩) :=
        .refused hk' (hboth hbefore) hrefused
      rw [Nat.add_assoc, List.take_length_add_append, List.take_length_add_append, perform_append,
        ← List.append_assoc] at hsecond
      exact hsecond

/-! ### The parts of a scan -/

theorem erase_cons (server : Server σ) (operation : String) (key : Option String) (v : Value)
    (vs : List Value) (s : σ) :
    erase server operation key (v :: vs) s =
      andThen (send server operation key (.delete (v :: vs)) s) fun reply s =>
        ((countOf reply).mapError .malformed, s) := by
  simp only [erase, List.isEmpty_cons]
  rcases send server operation key (.delete (v :: vs)) s with ⟨_ | _, _⟩ <;> rfl

theorem round_eq (server : Server σ) (operation : String) (key : Option String) (pattern : String)
    (cursor : Value) (s : σ) :
    round server operation key pattern cursor s =
      andThen (send server operation key (.scan cursor pattern) s) fun reply s =>
        match batch reply >>= fun b => (batchKeys b.2).map fun keys => (b.1, keys) with
        | .error e => (.error (.malformed e), s)
        | .ok (next, keys) =>
          let r := erase server operation key keys s
          (r.1.map fun n => (next, n), r.2) := by
  rw [round]
  rcases send server operation key (.scan cursor pattern) s with ⟨_ | _, _⟩ <;> rfl

theorem scanDelete_succ (server : Server σ) (operation : String) (key : Option String)
    (pattern : String) (rounds : ℕ) (cursor : Value) (deleted : Int) (s : σ) :
    scanDelete server operation key pattern (rounds + 1) cursor deleted s =
      andThen (round server operation key pattern cursor s) fun reply s =>
        if isEnd reply.1 then (.ok (deleted + reply.2), s)
        else scanDelete server operation key pattern rounds reply.1 (deleted + reply.2) s := by
  rw [scanDelete]
  rcases round server operation key pattern cursor s with ⟨_ | _, _⟩ <;> rfl

variable (refuses operation key)

theorem traced_send {c : Command} {reply : Value} (h : (server c w.state).1 = .ok reply) :
    Traced server refuses operation key [c] w reply
      (send (Watched.server server refuses) operation key c w) := by
  cases hrefuse : refuses w.sent.length with
  | none =>
    have hsend : send (Watched.server server refuses) operation key c w =
        (.ok reply, w.after server [c]) := by
      simp [send, Watched.server, hrefuse, h, Except.mapError, Watched.after, perform]
    rw [hsend]
    refine .done fun i hi => ?_
    obtain rfl : i = 0 := by simpa using hi
    exact hrefuse
  | some reason =>
    have hsend : send (Watched.server server refuses) operation key c w =
        (.error (.refused operation key reason),
          ⟨perform server (List.take 0 [c]) w.state, w.sent ++ List.take 1 [c]⟩) := by
      simp [send, Watched.server, hrefuse, Except.mapError, perform]
    rw [hsend]
    exact .refused Nat.one_pos (fun i hi => absurd hi (Nat.not_lt_zero i)) hrefuse

theorem traced_erase {keys : List Value} (h : Counts server w.state keys) :
    ∃ n, Traced server refuses operation key (Script.deletion keys) w n
      (erase (Watched.server server refuses) operation key keys w) := by
  cases keys with
  | nil => exact ⟨0, .nothing w 0⟩
  | cons v vs =>
    obtain ⟨n, hn⟩ := h
    refine ⟨n, ?_⟩
    rw [erase_cons]
    exact (traced_send refuses operation key hn).bind (.nothing _ n)

theorem traced_round {pattern : String} {cursor next : Int} {keys : List Value} {s : σ}
    (hgives : Gives server pattern cursor w.state next keys s) (hcounts : Counts server s keys) :
    ∃ n, Traced server refuses operation key
      (.scan (.int cursor) pattern :: Script.deletion keys) w (Value.int next, n)
      (round (Watched.server server refuses) operation key pattern (.int cursor) w) := by
  have hreply : (server (.scan (.int cursor) pattern) w.state).1 =
      .ok (.tuple [.int next, .list keys]) := congrArg Prod.fst hgives
  have hstate : (w.after server [.scan (.int cursor) pattern]).state = s := hgives.perform_cons []
  have hkeys : batchKeys (.list keys) = .ok keys := by
    cases keys <;> rfl
  rw [← hstate] at hcounts
  obtain ⟨n, herase⟩ := traced_erase refuses operation key hcounts
  refine ⟨n, ?_⟩
  rw [round_eq]
  refine (traced_send refuses operation key hreply).bind ?_
  simp only [batch, Value.elements?, bind, Except.bind, hkeys, Except.map]
  exact herase.map fun n => (Value.int next, n)

/-- A scan from a cursor sends the commands of its script. -/
theorem traced_scanDelete {pattern : String} (script : Script) {cursor : Int} {rounds : ℕ}
    (hplays : Plays server pattern cursor script w.state) (hrounds : script.rounds ≤ rounds)
    (deleted : Int) :
    ∃ n, Traced server refuses operation key (script.commands pattern cursor) w n
      (scanDelete (Watched.server server refuses) operation key pattern rounds (.int cursor) deleted
        w) := by
  induction script generalizing cursor rounds deleted w with
  | last keys =>
    obtain ⟨rounds, rfl⟩ := Nat.exists_eq_add_of_le' hrounds
    obtain ⟨s, hgives, hcounts⟩ := hplays
    obtain ⟨n, hround⟩ := traced_round refuses operation key hgives hcounts
    refine ⟨deleted + n, ?_⟩
    have hcommands : (Script.last keys).commands pattern cursor =
        (.scan (.int cursor) pattern :: Script.deletion keys) ++ [] := by
      rw [Script.commands, List.append_nil]
    rw [Script.rounds, scanDelete_succ, hcommands]
    refine hround.bind ?_
    simp only [isEnd, beq_self_eq_true, if_true]
    exact .nothing _ _
  | more next hnext keys rest ih =>
    obtain ⟨rounds, rfl⟩ := Nat.exists_eq_add_of_le' hrounds
    obtain ⟨s, hgives, hcounts, hrest⟩ := hplays
    obtain ⟨n, hround⟩ := traced_round refuses operation key hgives hcounts
    have hgoes : isEnd (.int next) = false := by simpa [isEnd] using hnext
    have hstate : (w.after server (.scan (.int cursor) pattern :: Script.deletion keys)).state =
        perform server (Script.deletion keys) s :=
      hgives.perform_cons (Script.deletion keys)
    rw [← hstate] at hrest
    obtain ⟨m, hm⟩ := ih hrest (Nat.le_add_left rest.rounds rounds) (deleted + n)
    refine ⟨m, ?_⟩
    rw [Script.rounds, ← Nat.add_assoc, scanDelete_succ]
    refine hround.bind ?_
    simp only [hgoes, Bool.false_eq_true, if_false]
    exact hm

end

/-! ### What is gone -/

def keysOf : Command → List Value
  | .delete keys => keys
  | _ => []

def deleted (commands : List Command) : List Value := commands.flatMap keysOf

theorem deleted_cons (c : Command) (commands : List Command) :
    deleted (c :: commands) = keysOf c ++ deleted commands :=
  List.flatMap_cons

theorem deleted_deletion (keys : List Value) : deleted (Script.deletion keys) = keys := by
  cases keys with
  | nil => rfl
  | cons v vs => exact List.append_nil _

theorem deleted_commands (pattern : String) (cursor : Int) (script : Script) :
    deleted (script.commands pattern cursor) = script.keys := by
  induction script generalizing cursor with
  | last keys => exact deleted_deletion keys
  | more next _ keys rest ih =>
    have hbatch := deleted_deletion keys
    have hrest := ih next
    rw [deleted] at hbatch hrest
    rw [Script.commands, List.cons_append, deleted_cons, deleted, List.flatMap_append, hbatch,
      hrest]
    rfl

/-- A scan leaves alone what a server holds, and a deletion takes away the keys it is given. -/
structure Deletes (server : Server σ) (held : σ → List UInt8 → Option δ) : Prop where
  scan : ∀ cursor pattern s, held (server (.scan cursor pattern) s).2 = held s
  delete : ∀ keys s key,
    held (server (.delete keys) s).2 key = if key ∈ names keys then none else held s key

def IsScanning : Command → Prop
  | .scan _ _ | .delete _ => True
  | _ => False

theorem isScanning_of_mem_commands {pattern : String} {cursor : Int} {script : Script} {c : Command}
    (h : c ∈ script.commands pattern cursor) : IsScanning c := by
  have hdeletion {keys : List Value} (hc : c ∈ Script.deletion keys) : IsScanning c := by
    cases keys with
    | nil => cases hc
    | cons v vs => exact List.mem_singleton.mp hc ▸ trivial
  induction script generalizing cursor with
  | last keys =>
    rcases List.mem_cons.mp h with rfl | h
    · trivial
    · exact hdeletion h
  | more next _ keys rest ih =>
    rcases List.mem_append.mp h with h | h
    · rcases List.mem_cons.mp h with rfl | h
      · trivial
      · exact hdeletion h
    · exact ih h

theorem names_append (vs ws : List Value) : names (vs ++ ws) = names vs ++ names ws :=
  List.filterMap_append

/-- Behind some commands of a scan the keys that they delete are gone, and nothing else. -/
theorem Deletes.held_perform {server : Server σ} {held : σ → List UInt8 → Option δ}
    (h : Deletes server held) {commands : List Command} (hcommands : ∀ c ∈ commands, IsScanning c)
    (s : σ) (key : List UInt8) :
    held (perform server commands s) key =
      if key ∈ names (deleted commands) then none else held s key := by
  induction commands generalizing s with
  | nil => rfl
  | cons c commands ih =>
    obtain ⟨hc, hcommands⟩ := List.forall_mem_cons.mp hcommands
    have hstep : perform server (c :: commands) s = perform server commands (server c s).2 := rfl
    rw [hstep, ih hcommands, deleted_cons, names_append]
    cases c with
    | scan cursor pattern =>
      rw [h.scan]
      rfl
    | delete keys =>
      rw [h.delete, keysOf]
      by_cases hfirst : key ∈ names keys <;> simp [hfirst]
    | _ => exact hc.elim

/-- A scan loses no batch and stops at the first failure. Whatever batches a server shows, clearing
under a label asks for them from the cursor zero on, each with the cursor of the reply before it and
all by one pattern; it deletes each batch that is not empty, as a whole, before it asks for the next
one, and it ends behind the reply with the cursor zero. If a command is refused, no further one is
sent, and the failure is that of the operation with the label. Clearing all of a space that is not
empty does the same, without a label. The keys of all batches are deleted, those of the batches that
were deleted before a failure are gone, and nothing else is. -/
theorem scan_loses_no_batch {server : Server σ} (refuses : ℕ → Option String) (space label : String)
    (s : σ) {script : Script} {rounds : ℕ} (hrounds : script.rounds ≤ rounds) :
    (Plays server (patternUnder (space ++ label)) 0 script s → ∃ n,
      Traced server refuses "clear_prefix" (some label)
        (script.commands (patternUnder (space ++ label)) 0) ⟨s, []⟩ n
        (clearUnder (Watched.server server refuses) space rounds label ⟨s, []⟩)) ∧
    (space ≠ "" → Plays server (patternUnder space) 0 script s →
      Traced server refuses "clear_all" none (script.commands (patternUnder space) 0) ⟨s, []⟩ ()
        (clearAll (Watched.server server refuses) space rounds ⟨s, []⟩)) ∧
    ∀ pattern, deleted (script.commands pattern 0) = script.keys ∧
      ∀ held : σ → List UInt8 → Option δ, Deletes server held → ∀ k key,
        held (perform server ((script.commands pattern 0).take k) s) key =
          if key ∈ names (deleted ((script.commands pattern 0).take k)) then none
          else held s key := by
  refine ⟨fun hplays => ?_, fun hspace hplays => ?_, fun pattern => ⟨?_, ?_⟩⟩
  · exact traced_scanDelete refuses "clear_prefix" (some label) script hplays hrounds 0
  · obtain ⟨n, hn⟩ := traced_scanDelete (w := ⟨s, []⟩) refuses "clear_all" none script hplays
      hrounds 0
    have hclear : clearAll (Watched.server server refuses) space rounds ⟨s, []⟩ =
        let r := scanDelete (Watched.server server refuses) "clear_all" none (patternUnder space)
          rounds (.int 0) 0 ⟨s, []⟩
        (r.1.map fun _ => (), r.2) := by
      simp [clearAll, hspace]
    rw [hclear]
    exact hn.map fun _ => ()
  · exact deleted_commands pattern 0 script
  · intro held hheld k key
    exact hheld.held_perform
      (fun c hc => isScanning_of_mem_commands (List.mem_of_mem_take hc)) s key

/-! ### A server that follows a script -/

def Script.replies : Script → List (Int × List Value)
  | last keys => [(0, keys)]
  | more next _ keys rest => (next, keys) :: rest.replies

def scripted : Server (List (Int × List Value) × List (List UInt8))
  | .scan _ _, ((next, keys) :: replies, ks) =>
    (.ok (.tuple [.int next, .list keys]), (replies, ks))
  | .delete vs, (replies, ks) =>
    let r := buckets (.delete vs) ks
    (r.1, (replies, r.2))
  | _, s => (.ok .null, s)

/-- Every script is played by some server. -/
theorem plays_scripted (pattern : String) (cursor : Int) (script : Script)
    (ks : List (List UInt8)) : Plays scripted pattern cursor script (script.replies, ks) := by
  have hcounts (replies : List (Int × List Value)) (keys : List Value) (ks : List (List UInt8)) :
      Counts scripted (replies, ks) keys := by
    cases keys with
    | nil => trivial
    | cons v vs => exact ⟨_, rfl⟩
  induction script generalizing cursor ks with
  | last keys => exact ⟨_, rfl, hcounts [] keys ks⟩
  | more next hnext keys rest ih =>
    refine ⟨_, rfl, hcounts rest.replies keys ks, ?_⟩
    cases keys with
    | nil => exact ih next ks
    | cons v vs => exact ih next _

theorem deletes_scripted : Deletes scripted fun s => isThere s.2 where
  scan cursor pattern s := by
    rcases s with ⟨_ | ⟨⟨next, keys⟩, replies⟩, ks⟩ <;> rfl
  delete keys s key := by
    by_cases hkey : key ∈ names keys <;> simp [scripted, buckets, isThere, hkey]

def overlapping : Script :=
  .more 7 (by decide) [.bytes [1], .bytes [2]] (.more 9 (by decide) []
    (.more 5 (by decide) [.bytes [2]] (.last [.bytes [2], .bytes [3]])))

/-- The second deletion is refused. The first is not undone, and the last batch is not asked for. -/
theorem scan_loses_no_batch_refused :
    let refuses := fun i => if i = 4 then some "down" else none
    let pattern := patternUnder ("pg:" ++ "u:")
    let s := (overlapping.replies, [[1], [2], [3], [4]])
    let run := clearUnder (Watched.server scripted refuses) "pg:" 4 "u:" ⟨s, []⟩
    overlapping.rounds ≤ 4 ∧ Plays scripted pattern 0 overlapping s ∧
      Deletes scripted (fun s => isThere s.2) ∧
      (∃ n, Traced scripted refuses "clear_prefix" (some "u:") (overlapping.commands pattern 0)
        ⟨s, []⟩ n run) ∧
      run = (.error (.refused "clear_prefix" (some "u:") "down"),
        ⟨([(0, [.bytes [2], .bytes [3]])], [[3], [4]]),
          [.scan (.int 0) pattern, .delete [.bytes [1], .bytes [2]], .scan (.int 7) pattern,
            .scan (.int 9) pattern, .delete [.bytes [2]]]⟩) := by
  intro refuses pattern s run
  have hrounds : overlapping.rounds ≤ 4 := by decide
  have hplays : Plays scripted pattern 0 overlapping s := plays_scripted pattern 0 overlapping _
  obtain ⟨htraced, -⟩ := scan_loses_no_batch refuses "pg:" "u:" s hrounds (δ := Unit)
  exact ⟨hrounds, hplays, deletes_scripted, htraced hplays, rfl⟩

end Paging.Cache.Remote
