import Paging.Digest
import Paging.Json.Printer
import Paging.Query

/-!
Keys of the cache. A page is kept under a prefix and the digest of what its request asked for, a row
count under its table and the digest of the condition and its parameters. The digest is taken of
canonical JSON, in which one request has one text.
-/

namespace Paging.Cache

def digest (v : Value) : String :=
  Digest.md5 (Text.Utf8.encode (Json.canonical.render v))

def pagePayload (d : Descriptor) (selected : List Text) : Value :=
  .object (d.toFields ++ ([("selected", .list (selected.map .text))] : Fields))

/-- The key of a page; empty without a prefix, which leaves the page uncached. -/
def pageKey (label : String) (d : Descriptor) (selected : List Text) : String :=
  if label.isEmpty then "" else label ++ digest (pagePayload d selected)

def countPayload (q : Query) : Value :=
  .list [.text q.whereText, .list q.params]

def countLabel : String := "count:"

def countKey (table : String) (q : Query) : String :=
  countLabel ++ table ++ ":" ++ digest (countPayload q)

@[simp] theorem pageKey_empty (d : Descriptor) (selected : List Text) :
    pageKey "" d selected = "" := by
  simp [pageKey]

end Paging.Cache
