import Paging.Json.Reader

/-!
JSON from a client: a text, or bytes in any of the Unicode encodings.
-/

namespace Paging.Json

/-- How deeply containers may be nested in a client's text. A text that nests deeper is refused like
any other fault in it, and the caller is told; nothing else is limited by how deep calls may go. -/
def clientRoom : Nat := 990

def readText (s : Text) : Except (List Letter × Error) Value :=
  (read clientRoom s.toList).mapError fun e => (s.toList, e)

/-- The value that a client's text or bytes write. Only bytes may start with a byte order mark. -/
def readInput (v : Value) : Except (List Letter × Error) Value :=
  match v with
  | .text s =>
    if s.toList.head? = some (.char '\ufeff') then .error (s.toList, .malformed .mark 0)
    else readText s
  | .bytes b =>
    match (Text.Encoding.detect b).decode b with
    | .ok s => readText s
    | .error e => .error ([], .undecodable e)
  | v => .error ([], .notText v.kind)

end Paging.Json
