import Paging.Text.Encoding

/-!
What can be wrong with a JSON text, and the words for it.
-/

namespace Paging.Json

/-- What was found wrong at a position of the text. -/
inductive Fault
  | value | comma | colon | name | openString | control | escape | unicodeEscape | extra | mark
  deriving DecidableEq

def Fault.words : Fault → String
  | .value => "Expecting value"
  | .comma => "Expecting ',' delimiter"
  | .colon => "Expecting ':' delimiter"
  | .name => "Expecting property name enclosed in double quotes"
  | .openString => "Unterminated string starting at"
  | .control => "Invalid control character at"
  | .escape => "Invalid \\escape"
  | .unicodeEscape => "Invalid \\uXXXX escape"
  | .extra => "Extra data"
  | .mark => "Unexpected UTF-8 BOM (decode using utf-8-sig)"

inductive Container
  | array | object
  deriving DecidableEq

inductive Error
  /-- The text has a fault at this position. -/
  | malformed (fault : Fault) (position : Nat)
  /-- A container is nested too deeply. -/
  | tooDeep (container : Container)
  /-- An integer has more digits than are read. -/
  | tooLong (digits : Nat)
  /-- The bytes are not text. -/
  | undecodable (e : Text.DecodeError)
  /-- The input is neither text nor bytes. -/
  | notText (kind : String)
  deriving DecidableEq

/-- The line and the column of a position, both from 1. -/
def lineColumn (text : List Letter) (position : Nat) : Nat × Nat :=
  let before := text.take position
  let newline : Letter := '\n'
  (before.count newline + 1, (before.reverse.takeWhile (· ≠ newline)).length + 1)

def Error.message (text : List Letter) : Error → String
  | .malformed fault position =>
    let (line, column) := lineColumn text position
    fault.words ++ ": line " ++ toString line ++ " column " ++ toString column ++
      " (char " ++ toString position ++ ")"
  | .tooDeep container =>
    "maximum recursion depth exceeded while decoding a JSON " ++
      (match container with
        | .array => "array"
        | .object => "object") ++ " from a unicode string"
  | .tooLong digits =>
    "Exceeds the limit (4300 digits) for integer string conversion: value has " ++
      toString digits ++
      " digits; use sys.set_int_max_str_digits() to increase the limit"
  | .undecodable e => e.message
  | .notText kind => "the JSON object must be str, bytes or bytearray, not " ++ kind

end Paging.Json
