import Paging.Failure
import Paging.Notice
import Paging.Text.Utf8

/-!
A cache on a key-value server. Every key stands in a space of its own on the server; what starts
with some text is found by scanning in rounds, each of which gives a batch of keys and the cursor
of the next round, until the cursor is zero.
-/

namespace Paging.Cache

inductive Command
  | get (key : String)
  | set (key text : String)
  | setFor (key : String) (seconds : Int) (text : String)
  | exists_ (key : String)
  | scan (cursor : Value) (pattern : String)
  | delete (keys : List Value)
  | flush

/-- A server replies to a command or refuses it with a message. -/
abbrev Server (σ : Type) := Command → σ → Except String Value × σ

/-- A reply that is not of the form that the command promises. -/
inductive ReplyError
  | notPair (kind : String)
  | tooShort (found : Nat)
  | tooLong
  | notKeys (kind : String)
  | notCount (kind : String)
  deriving DecidableEq

def ReplyError.message : ReplyError → String
  | .notPair kind => "cannot unpack non-iterable " ++ kind ++ " object"
  | .tooShort found => "not enough values to unpack (expected 2, got " ++ toString found ++ ")"
  | .tooLong => "too many values to unpack (expected 2)"
  | .notKeys kind => "argument after * must be an iterable, not " ++ kind
  | .notCount kind => "unsupported operand type(s) for +=: 'int' and '" ++ kind ++ "'"

inductive RemoteError
  | refused (operation : String) (key : Option String) (reason : String)
  | undecodable (e : Text.DecodeError)
  | malformed (e : ReplyError)
  /-- The scan took more rounds than it may. -/
  | unfinished

def refusal (operation : String) (key : Option String) (reason : String) : Failure :=
  .cache (.text operation) (match key with
    | some k => .text k
    | none => .null) (.text reason)

namespace Remote

variable {σ : Type} (server : Server σ) (space : String)

def send (operation : String) (key : Option String) (c : Command) (s : σ) :
    Except RemoteError Value × σ :=
  let r := server c s
  (r.1.mapError (.refused operation key), r.2)

/-- A text as the server holds it. -/
def textOf : Value → Except RemoteError Value
  | .bytes b =>
    ((Text.Utf8.decode b).map fun (s : String) => Value.text s).mapError RemoteError.undecodable
  | v => .ok v

def get (key : String) (s : σ) : Except RemoteError (Option Value) × σ :=
  match send server "get" (some key) (.get (space ++ key)) s with
  | (.error e, s) => (.error e, s)
  | (.ok .null, s) => (.ok none, s)
  | (.ok v, s) => ((textOf v).map some, s)

/-- Keep a text for some seconds, or forever. -/
def set (key text : String) (ttl : Option Int) (s : σ) : Except RemoteError Unit × σ :=
  let command := match ttl.filter (· != 0) with
    | some seconds => Command.setFor (space ++ key) seconds text
    | none => Command.set (space ++ key) text
  let r := send server "set" (some key) command s
  (r.1.map fun _ => (), r.2)

def isValid (key : String) (s : σ) : Except RemoteError Bool × σ :=
  let r := send server "exists" (some key) (.exists_ (space ++ key)) s
  (r.1.map fun v => !v.isEmpty, r.2)

/-- The next cursor and the keys that a round of a scan gives. -/
def batch (reply : Value) : Except ReplyError (Value × Value) :=
  match reply.elements? with
  | none => .error (.notPair reply.kind)
  | some [cursor, keys] => .ok (cursor, keys)
  | some (_ :: _ :: _) => .error .tooLong
  | some xs => .error (.tooShort xs.length)

def batchKeys (keys : Value) : Except ReplyError (List Value) :=
  if keys.isEmpty then .ok []
  else match keys.elements? with
    | some ks => .ok ks
    | none => .error (.notKeys keys.kind)

/-- How many keys the server says it deleted. -/
def countOf : Value → Except ReplyError Int
  | .int n => .ok n
  | .bool b => .ok (if b then 1 else 0)
  | v => .error (.notCount v.kind)

/-- Is this the cursor after the last round? -/
def isEnd : Value → Bool
  | .int n => n == 0
  | .bool b => !b
  | .float x => x.isZero
  | _ => false

/-- Delete the keys of a batch, if there are any, and count them. -/
def erase (operation : String) (key : Option String) (keys : List Value) (s : σ) :
    Except RemoteError Int × σ :=
  if keys.isEmpty then (.ok 0, s)
  else match send server operation key (.delete keys) s with
    | (.error e, s) => (.error e, s)
    | (.ok reply, s) => ((countOf reply).mapError .malformed, s)

/-- One round of a scan: the cursor of the next one, and how many keys were deleted. -/
def round (operation : String) (key : Option String) (pattern : String) (cursor : Value) (s : σ) :
    Except RemoteError (Value × Int) × σ :=
  match send server operation key (.scan cursor pattern) s with
  | (.error e, s) => (.error e, s)
  | (.ok reply, s) =>
    match batch reply >>= fun b => (batchKeys b.2).map fun keys => (b.1, keys) with
    | .error e => (.error (.malformed e), s)
    | .ok (next, keys) =>
      let r := erase server operation key keys s
      (r.1.map fun n => (next, n), r.2)

/-- Delete what matches a pattern, in at most `rounds` rounds, and count it. -/
def scanDelete (operation : String) (key : Option String) (pattern : String) :
    Nat → Value → Int → σ → Except RemoteError Int × σ
  | 0, _, _, s => (.error .unfinished, s)
  | rounds + 1, cursor, deleted, s =>
    match round server operation key pattern cursor s with
    | (.error e, s) => (.error e, s)
    | (.ok (next, n), s) =>
      if isEnd next then (.ok (deleted + n), s)
      else scanDelete operation key pattern rounds next (deleted + n) s

def patternUnder (label : String) : String := label ++ "*"

/-- Delete the keys that start with `label`, and count them. -/
def clearUnder (rounds : Nat) (label : String) (s : σ) : Except RemoteError Int × σ :=
  scanDelete server "clear_prefix" (some label) (patternUnder (space ++ label)) rounds (.int 0) 0 s

def clearAll (rounds : Nat) (s : σ) : Except RemoteError Unit × σ :=
  if space.isEmpty then
    let r := send server "clear_all" none .flush s
    (r.1.map fun _ => (), r.2)
  else
    let r := scanDelete server "clear_all" none (patternUnder space) rounds (.int 0) 0 s
    (r.1.map fun _ => (), r.2)

def source : String := "query_paginator.redis_cache"

/-- The notices about clearing a label: how many keys were deleted, unless that failed. -/
def clearNotices (label : String) : Except RemoteError Int → List Notice
  | .ok n =>
    [⟨.debug, source, "Cleared " ++ toString n ++ " keys under prefix " ++ label⟩]
  | .error _ => []

end Remote

end Paging.Cache
