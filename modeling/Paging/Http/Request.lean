import Paging.Http.Form
import Paging.Json.Input
import Paging.Notice
import Paging.Text.Blank
import Paging.Text.Case

/-!
Requests as they come from the web: method, query and body, buffered. Only `POST` is read from its
body, which is a JSON object; any other method is read from the query.
-/

namespace Paging.Http

structure Request where
  method : Option Text := some "GET"
  query : Fields := []
  /-- A text or a byte string. -/
  body : Value := .null

namespace Request

def ofQueryString (method : Option Text) (queryString : Text) : Request :=
  { method := method, query := Http.parameters queryString }

/-- Is the request read from its body? A missing method counts as `GET`. -/
def isPost (r : Request) : Bool :=
  match r.method with
  | some m => Text.upper m == "POST"
  | none => false

def isBlankBody : Value → Bool
  | .text s => Text.allBlank s
  | .bytes b => b.all Text.isBlankByte
  | _ => true

inductive BodyError
  | unreadable (text : List Letter) (e : Json.Error)
  | notObject

def BodyError.message : BodyError → String
  | .unreadable text e => "Ignoring undecodable request body: " ++ e.message text
  | .notObject => "Ignoring request body that is not a JSON object"

def bodyParameters (body : Value) : Except BodyError Fields :=
  if isBlankBody body then .ok []
  else match Json.readInput body with
    | .error (text, e) => .error (.unreadable text e)
    | .ok (.object fields) => .ok fields
    | .ok _ => .error .notObject

def parameters (r : Request) : Fields :=
  if r.isPost then (bodyParameters r.body).toOption.getD [] else r.query

def source : String := "query_paginator.request"

def notices (r : Request) : List Notice :=
  if r.isPost then
    match bodyParameters r.body with
    | .ok _ => []
    | .error e => [⟨.warning, source, e.message⟩]
  else []

end Request

/-- The request that a server buffers: the method in capitals, the parameters of the raw query
string read as Latin-1, and for `POST` the body, which comes in chunks. -/
def buffer (method : Text) (rawQuery : List UInt8) (chunks : List (List UInt8)) : Request :=
  let method := Text.upper method
  { method := some method
    query := Http.parameters (Text.ofList (rawQuery.map fun b => Letter.ofNat b.toNat))
    body := if method = "POST" then .bytes chunks.flatten else .null }

/-- How many chunks are received for a request; a body without any still takes one. -/
def chunksRead (method : Text) (chunks : List (List UInt8)) : Nat :=
  if Text.upper method = "POST" then max 1 chunks.length else 0

end Paging.Http
