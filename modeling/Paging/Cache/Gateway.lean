import Paging.Cache.Store
import Paging.Notice
import Paging.Page

/-!
Pages and row counts in the cache. The store stands behind a connection that may fail at any
operation; a failure never reaches a request, it is noted and counts as a miss or as a write that
was dropped.
-/

namespace Paging.Cache

inductive Operation
  | get | set | isValid | clearUnder | clearAll
  deriving DecidableEq

structure Adapter where
  store : Store := {}
  /-- How many operations were asked for so far. -/
  asked : Nat := 0
  /-- The message with which an operation fails, by its number and what it is asked about. -/
  outage : Nat → Operation → Option String → Option String := fun _ _ _ => none

namespace Adapter

def attempt {α : Type} (a : Adapter) (op : Operation) (about : Option String)
    (act : Store → α × Store) : Except String α × Adapter :=
  match a.outage a.asked op about with
  | some message => (.error message, { a with asked := a.asked + 1 })
  | none => (.ok (act a.store).1, { a with asked := a.asked + 1, store := (act a.store).2 })

def get (a : Adapter) (key : String) : Except String (Option Text) × Adapter :=
  a.attempt .get (some key) fun s => s.get key

def isValid (a : Adapter) (key : String) : Except String Bool × Adapter :=
  a.attempt .isValid (some key) fun s => s.isValid key

def set (a : Adapter) (key : String) (text : Text) (ttl : Option Int) :
    Except String Unit × Adapter :=
  a.attempt .set (some key) fun s => ((), s.set key text ttl)

def clearUnder (a : Adapter) (label : String) : Except String Unit × Adapter :=
  a.attempt .clearUnder (some label) fun s => ((), s.clearUnder label)

def clearAll (a : Adapter) : Except String Unit × Adapter :=
  a.attempt .clearAll none fun s => ((), s.clearAll)

end Adapter

/-- The cache of a paginator, and the notices made so far, oldest first. -/
structure Gateway where
  /-- There is no caching without one. -/
  adapter : Option Adapter := none
  /-- How many seconds an entry lives; forever if missing or zero. -/
  ttl : Option Int := none
  log : List Notice := []

namespace Gateway

def source : String := "query_paginator.cache"

def enabled (g : Gateway) : Bool := g.adapter.isSome

def note (g : Gateway) (ns : List Notice) : Gateway :=
  { g with log := g.log ++ ns }

@[simp] theorem note_adapter (g : Gateway) (ns : List Notice) :
    (g.note ns).adapter = g.adapter := rfl

@[simp] theorem note_ttl (g : Gateway) (ns : List Notice) : (g.note ns).ttl = g.ttl := rfl

def tell (g : Gateway) (level : Level) (text : Text) : Gateway :=
  g.note [⟨level, source, text⟩]

def withAdapter (g : Gateway) (a : Adapter) : Gateway :=
  { g with adapter := some a }

def after {α : Type} (g : Gateway) (what : String) : Except String α × Adapter → Gateway
  | (.ok _, a) => g.withAdapter a
  | (.error message, a) => (g.withAdapter a).tell .warning (what ++ ": " ++ message)

/-- The text under a key. An empty key and an empty text count as nothing. -/
def read (g : Gateway) (key : String) : Option Text × Gateway :=
  match g.adapter with
  | none => (none, g)
  | some a =>
    if key.isEmpty then (none, g)
    else
      let what := "Cache get failed for key " ++ key
      let checked := a.isValid key
      match checked.1 with
      | .ok true =>
        let got := checked.2.get key
        match got.1 with
        | .ok text => (text.filter fun t => !t.isEmpty, g.withAdapter got.2)
        | .error _ => (none, g.after what got)
      | _ => (none, g.after what checked)

/-- Keep a text; nothing is kept under the empty key. -/
def write (g : Gateway) (key : String) (text : Text) : Gateway :=
  match g.adapter with
  | none => g
  | some a =>
    if key.isEmpty then g
    else g.after ("Cache set failed for key " ++ key) (a.set key text g.ttl)

/-- The page under a key; a text that is no page is passed over. -/
def getPage (g : Gateway) (key : String) : Option Page × Gateway :=
  match g.read key with
  | (none, g) => (none, g.tell .debug ("Cache miss for key " ++ key))
  | (some text, g) =>
    match Page.ofJson text with
    | .ok page => (some page, g.tell .debug ("Cache hit for key " ++ key))
    | .error problems =>
      (none, g.tell .warning ("Discarding corrupt cache entry " ++ key ++ ": " ++
        Validation.summary problems "Page"))

def storePage (g : Gateway) (key : String) (page : Page) : Gateway :=
  g.write key page.toJson

/-- The row count under a key; a text that is no number is passed over. -/
def getCount (g : Gateway) (key : String) : Option Int × Gateway :=
  match g.read key with
  | (none, g) => (none, g)
  | (some text, g) =>
    match Decimal.readInt? text with
    | some n => (some n, g)
    | none =>
      (none, g.tell .warning ("Discarding corrupt row count " ++ key ++ ": " ++ Text.quoted text))

/-- Keep a row count. -/
def storeCount (g : Gateway) (key : String) (total : Int) : Gateway :=
  g.write key (toString total)

/-- Forget every key that starts with `label`, unless that is empty. -/
def clearUnder (g : Gateway) (label : String) : Gateway :=
  match g.adapter with
  | none => g
  | some a =>
    if label.isEmpty then g
    else g.after ("Cache clear failed for prefix " ++ label) (a.clearUnder label)

def clearAll (g : Gateway) : Gateway :=
  match g.adapter with
  | none => g
  | some a => g.after "Cache clear_all failed" a.clearAll

end Gateway

end Paging.Cache
