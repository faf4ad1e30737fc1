import Paging.Text

/-!
The store behind the cache: texts under keys, some of them with a time at which they expire. An
expired entry stays until it is next looked at. The clock counts seconds and only `advance` moves
it.
-/

namespace Paging.Cache

structure Entry where
  text : Text
  /-- The second from which on the entry is gone; never if missing. -/
  expires : Option Int
  deriving DecidableEq

structure Store where
  /-- In the order in which the keys were first set. -/
  entries : List (String × Entry) := []
  now : Int := 0
  deriving DecidableEq

namespace Entry

def isLive (now : Int) (e : Entry) : Bool :=
  match e.expires with
  | none => true
  | some t => now < t

/-- The entry of a text that is set at the time `now`; a lifetime of zero is none. -/
def lasting (now : Int) (text : Text) (ttl : Option Int) : Entry where
  text := text
  expires := (ttl.filter (· != 0)).map (now + ·)

end Entry

namespace Store

/-- Put an entry in the place of its key, or behind all others if the key is new. -/
def put (key : String) (e : Entry) : List (String × Entry) → List (String × Entry)
  | [] => [(key, e)]
  | x :: r => if x.1 = key then (key, e) :: r else x :: put key e r

@[simp] theorem lookup_put_self (key : String) (e : Entry) (es : List (String × Entry)) :
    (put key e es).lookup key = some e := by
  induction es with
  | nil => simp [put]
  | cons x r ih =>
    obtain ⟨k, w⟩ := x
    by_cases h : k = key
    · simp [put, h]
    · have h' : (key == k) = false := by simpa using fun e => h e.symm
      simpa [put, h, h', List.lookup_cons] using ih

def find? (s : Store) (key : String) : Option Entry := s.entries.lookup key

def erase (s : Store) (key : String) : Store :=
  { s with entries := s.entries.filter fun x => x.1 != key }

def set (s : Store) (key : String) (text : Text) (ttl : Option Int) : Store :=
  { s with entries := put key (.lasting s.now text ttl) s.entries }

def live? (s : Store) (key : String) : Option Text :=
  ((s.find? key).filter (Entry.isLive s.now)).map Entry.text

/-- The store after a key was looked at: an expired entry is gone. -/
def settle (s : Store) (key : String) : Store :=
  match s.find? key with
  | some e => if e.isLive s.now then s else s.erase key
  | none => s

/-- Read a key, which drops an expired entry. -/
def get (s : Store) (key : String) : Option Text × Store :=
  (s.live? key, s.settle key)

/-- Does a key hold a text? The look drops an expired entry. -/
def isValid (s : Store) (key : String) : Bool × Store :=
  ((s.live? key).isSome, s.settle key)

def isUnder (label key : String) : Bool := label.toList.isPrefixOf key.toList

def clearUnder (s : Store) (label : String) : Store :=
  { s with entries := s.entries.filter fun x => !(isUnder label x.1) }

def clearAll (s : Store) : Store :=
  { s with entries := [] }

/-- The keys, those of expired entries included. -/
def keys (s : Store) : List String := s.entries.map Prod.fst

def advance (s : Store) (seconds : Int) : Store :=
  { s with now := s.now + seconds }

def overwrite (s : Store) (text : Text) : Store :=
  { s with entries := s.entries.map fun x => (x.1, ⟨text, none⟩) }

end Store

end Paging.Cache
