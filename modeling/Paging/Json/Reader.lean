import Paging.Json.Error
import Paging.Value
import Paging.Decimal.Reader

/-!
Reading JSON. Beyond the standard `NaN`, `Infinity` and `-Infinity` are read as floats, a later
field of the same name replaces the earlier one in its place, and a number with neither fraction
nor exponent is an integer of any size up to the digit limit. The first fault from the left is
reported with its position.
-/

namespace Paging.Json

open Decimal

/-- What is left of a text and where it starts. -/
structure Cursor where
  rest : List Letter
  position : Nat

namespace Cursor

def skip (c : Cursor) (n : Nat) : Cursor := ⟨c.rest.drop n, c.position + n⟩

end Cursor

def fail {α : Type} (fault : Fault) (c : Cursor) : Except Error (α × Cursor) :=
  .error (.malformed fault c.position)

def isSpace (c : Letter) : Bool :=
  c == ' ' || c == '\t' || c == '\n' || c == '\r'

def skipSpaces (c : Cursor) : Cursor :=
  c.skip (c.rest.takeWhile isSpace).length

def hexValue? (c : Letter) : Option Nat :=
  let n := c.toNat
  if c.isDigit then some (n - 48)
  else if c.has fun c => 'a' ≤ c && c ≤ 'f' then some (n - 87)
  else if c.has fun c => 'A' ≤ c && c ≤ 'F' then some (n - 55)
  else none

/-- The code unit of the four digits behind `\u`, if there are four and something follows them. -/
def unit? : List Letter → Option (Nat × List Letter)
  | a :: b :: c :: d :: x :: r => do
    let a ← hexValue? a
    let b ← hexValue? b
    let c ← hexValue? c
    let d ← hexValue? d
    return (((a * 16 + b) * 16 + c) * 16 + d, x :: r)
  | _ => none

def isHighSurrogate (n : Nat) : Bool := 0xd800 ≤ n && n < 0xdc00

def isLowSurrogate (n : Nat) : Bool := 0xdc00 ≤ n && n < 0xe000

def pairLetter (high low : Nat) : Letter :=
  Letter.ofNat (0x10000 + (high - 0xd800) * 1024 + (low - 0xdc00))

def simpleEscape? : Letter → Option Letter
  | '\x22' => some '\x22'
  | '\\' => some '\\'
  | '/' => some '/'
  | 'b' => some '\x08'
  | 'f' => some '\x0c'
  | 'n' => some '\n'
  | 'r' => some '\r'
  | 't' => some '\t'
  | _ => none

/-- Put a character in front of what was read. -/
def prepend (x : Letter) (more : Except Error (List Letter × Cursor)) :
    Except Error (List Letter × Cursor) :=
  more.map fun m => (x :: m.1, m.2)

/-- The text up to the closing quote. `start` is the position of the opening quote, `p` that of the
first character of the list. -/
def readChars (start : Nat) : Nat → List Letter → Nat → Except Error (List Letter × Cursor)
  | 0, _, _ => .error (.malformed .openString start)
  | _, [], _ => .error (.malformed .openString start)
  | fuel + 1, c :: r, p =>
    if c = '\x22' then .ok ([], ⟨r, p + 1⟩)
    else if c = '\\' then
      match r with
      | [] => .error (.malformed .openString start)
      | 'u' :: r =>
        match unit? r with
        | none => .error (.malformed .unicodeEscape (p + 1))
        | some (n, r) =>
          match isHighSurrogate n, r with
          | true, '\\' :: 'u' :: r' =>
            if r'.length < 5 then prepend (Letter.ofNat n) (readChars start fuel r (p + 6))
            else match unit? r' with
              | none => .error (.malformed .unicodeEscape (p + 7))
              | some (m, r'') =>
                if isLowSurrogate m then
                  prepend (pairLetter n m) (readChars start fuel r'' (p + 12))
                else prepend (Letter.ofNat n) (readChars start fuel r (p + 6))
          | _, _ => prepend (Letter.ofNat n) (readChars start fuel r (p + 6))
      | e :: r =>
        match simpleEscape? e with
        | none => .error (.malformed .escape p)
        | some x => prepend x (readChars start fuel r (p + 2))
    else if c.toNat < 32 then .error (.malformed .control p)
    else prepend c (readChars start fuel r (p + 1))

def readString (c : Cursor) : Except Error (Text × Cursor) := do
  let (cs, k) ← readChars (c.position - 1) (c.rest.length + 1) c.rest c.position
  return (Text.ofList cs, k)

def digitsOf (cs : List Letter) : List Nat :=
  cs.map fun c => c.toNat - 48

/-- The digits of the whole part: a zero alone, or digits that do not start with one. -/
def wholePart (cs : List Letter) : List Letter :=
  match cs with
  | '0' :: _ => ['0']
  | _ => cs.takeWhile Letter.isDigit

/-- The digits behind the point, if there are any. -/
def fractionPart : List Letter → List Letter
  | '.' :: r => r.takeWhile Letter.isDigit
  | _ => []

/-- The exponent, if it has digits: how many characters it takes, and its value. -/
def exponentPart? : List Letter → Option (Nat × Int)
  | e :: r =>
    if e = 'e' ∨ e = 'E' then
      let (negative, ds) := signed r
      let ds := ds.takeWhile Letter.isDigit
      let sign := match r with
        | '-' :: _ => 1
        | '+' :: _ => 1
        | _ => 0
      if ds.isEmpty then none
      else
        let n : Int := ofDigits (digitsOf ds)
        some (1 + sign + ds.length, if negative then -n else n)
    else none
  | [] => none

/-- Is a number negative, and the cursor behind its sign. -/
def takeSign (c : Cursor) : Bool × Cursor :=
  match c.rest with
  | '-' :: r => (true, ⟨r, c.position + 1⟩)
  | _ => (false, c)

def readNumber (c : Cursor) : Except Error (Value × Cursor) :=
  let (negative, body) := takeSign c
  let whole := wholePart body.rest
  if whole.isEmpty then fail .value c
  else
    let afterWhole := body.skip whole.length
    let fraction := fractionPart afterWhole.rest
    let afterFraction :=
      if fraction.isEmpty then afterWhole else afterWhole.skip (fraction.length + 1)
    match fraction.isEmpty, exponentPart? afterFraction.rest with
    | true, none =>
      if maxDigits < whole.length then .error (.tooLong whole.length)
      else
        let n : Int := ofDigits (digitsOf whole)
        .ok (.int (if negative then -n else n), afterFraction)
    | _, e =>
      let (used, e) := e.getD (0, 0)
      let n := ofDigits (digitsOf (whole ++ fraction))
      .ok (.float (.ofDecimal negative n (e - fraction.length)), afterFraction.skip used)

def words : List (List Letter × Value) :=
  [(letters "null".toList, .null), (letters "true".toList, .bool true),
   (letters "false".toList, .bool false), (letters "NaN".toList, .float .nan),
   (letters "Infinity".toList, .float (.infinite false)),
   (letters "-Infinity".toList, .float (.infinite true))]

def readScalar (c : Cursor) : Except Error (Value × Cursor) :=
  match words.find? fun w => w.1.isPrefixOf c.rest with
  | some w => .ok (w.2, c.skip w.1.length)
  | none => readNumber c

mutual

/-- A value. `room` is how many containers may still be opened around it; `fuel` bounds the steps.
-/
def readValue : (fuel room : Nat) → Cursor → Except Error (Value × Cursor)
  | 0, _, c => fail .value c
  | fuel + 1, room, c =>
    match c.rest with
    | '\x22' :: _ => do
      let (s, k) ← readString (c.skip 1)
      return (.text s, k)
    | '[' :: _ =>
      match room with
      | 0 => .error (.tooDeep .array)
      | room + 1 => do
        let c := skipSpaces (c.skip 1)
        if c.rest.head? = some (']' : Letter) then return (.list [], c.skip 1)
        let (xs, k) ← readItems fuel room c
        return (.list xs, k)
    | '\x7b' :: _ =>
      match room with
      | 0 => .error (.tooDeep .object)
      | room + 1 => do
        let c := skipSpaces (c.skip 1)
        if c.rest.head? = some ('\x7d' : Letter) then return (.object [], c.skip 1)
        let (fields, k) ← readMembers fuel room [] c
        return (.object fields, k)
    | _ => readScalar c

/-- The items of an array that has some, up to and with the closing bracket. -/
def readItems : (fuel room : Nat) → Cursor → Except Error (List Value × Cursor)
  | 0, _, c => fail .value c
  | fuel + 1, room, c => do
    let (v, k) ← readValue fuel room c
    let k := skipSpaces k
    match k.rest with
    | ']' :: _ => return ([v], k.skip 1)
    | ',' :: _ =>
      let (vs, k) ← readItems fuel room (skipSpaces (k.skip 1))
      return (v :: vs, k)
    | _ => fail .comma k

/-- The members of an object that has some, up to and with the closing brace. -/
def readMembers : (fuel room : Nat) → Fields → Cursor → Except Error (Fields × Cursor)
  | 0, _, _, c => fail .value c
  | fuel + 1, room, seen, c => do
    if c.rest.head? ≠ some ('\x22' : Letter) then fail .name c
    else
      let (name, k) ← readString (c.skip 1)
      let k := skipSpaces k
      if k.rest.head? ≠ some (':' : Letter) then fail .colon k
      else
        let (v, k) ← readValue fuel room (skipSpaces (k.skip 1))
        let k := skipSpaces k
        let seen := seen.insert name v
        match k.rest with
        | '\x7d' :: _ => return (seen, k.skip 1)
        | ',' :: _ => readMembers fuel room seen (skipSpaces (k.skip 1))
        | _ => fail .comma k

end

/-- The value that a text writes, with at most `room` containers around any other. -/
def read (room : Nat) (text : List Letter) : Except Error Value := do
  let (v, k) ← readValue (2 * text.length + 2) room (skipSpaces ⟨text, 0⟩)
  let k := skipSpaces k
  if k.rest.isEmpty then return v else .error (.malformed .extra k.position)

end Paging.Json
