import Paging.Text.Utf8

/-!
Byte strings whose encoding is not declared. A byte order mark decides, and without one the zero
bytes among the first four; what shows neither is UTF-8.
-/

namespace Paging.Text

inductive ByteOrder
  | little | big
  deriving DecidableEq

inductive Encoding
  | utf8
  | utf8Marked
  | utf16 (order : ByteOrder) (marked : Bool)
  | utf32 (order : ByteOrder) (marked : Bool)
  deriving DecidableEq

namespace Encoding

/-- The encoding that the first bytes show. -/
def detect (bs : List UInt8) : Encoding :=
  match bs with
  | 0x00 :: 0x00 :: 0xfe :: 0xff :: _ => .utf32 .big true
  | 0xff :: 0xfe :: 0x00 :: 0x00 :: _ => .utf32 .little true
  | 0xfe :: 0xff :: _ => .utf16 .big true
  | 0xff :: 0xfe :: _ => .utf16 .little true
  | 0xef :: 0xbb :: 0xbf :: _ => .utf8Marked
  | a :: b :: c :: d :: _ =>
    if a = 0 then (if b = 0 then .utf32 .big false else .utf16 .big false)
    else if b = 0 then (if c = 0 ∧ d = 0 then .utf32 .little false else .utf16 .little false)
    else .utf8
  | [a, b] => if a = 0 then .utf16 .big false else if b = 0 then .utf16 .little false else .utf8
  | _ => .utf8

def orderName : ByteOrder → String
  | .little => "le"
  | .big => "be"

def unit (order : ByteOrder) (bs : List UInt8) : Nat :=
  let bs := match order with
    | .little => bs.reverse
    | .big => bs
  bs.foldl (fun n b => n * 256 + b.toNat) 0

def truncated : String := "truncated data"

/-- The half of a surrogate pair that stands in front of some bytes of UTF-8. -/
def half? : List UInt8 → Option Nat
  | a :: b :: c :: _ =>
    if a = 0xed ∧ 0xa0 ≤ b ∧ b < 0xc0 ∧ Utf8.isTail c then
      some (0xd000 + Utf8.low6 b * 64 + Utf8.low6 c)
    else none
  | _ => none

/-- Decode UTF-8 in which half a surrogate pair may stand alone; `fuel` bounds the number of
letters. -/
def decode8 : Nat → Nat → List UInt8 → Except DecodeError (List Letter)
  | 0, _, _ => .ok []
  | _, _, [] => .ok []
  | fuel + 1, p, a :: r =>
    match half? (a :: r) with
    | some n => (decode8 fuel (p + 3) (r.drop 2)).map (Letter.ofNat n :: ·)
    | none =>
      match Utf8.step a r with
      | .char c used => (decode8 fuel (p + used) ((a :: r).drop used)).map (Letter.char c :: ·)
      | .fault reason used => .error ⟨"utf-8", p, p + used, a, reason⟩

/-- Decode units of two bytes; `fuel` bounds their number. -/
def decode16 (order : ByteOrder) : Nat → Nat → List UInt8 → Except DecodeError (List Letter)
  | 0, _, _ => .ok []
  | _, _, [] => .ok []
  | _, p, [a] => .error ⟨"utf-16-" ++ orderName order, p, p + 1, a, truncated⟩
  | fuel + 1, p, a :: b :: r => do
    let n := unit order [a, b]
    match r with
    | c :: d :: r' =>
      let m := unit order [c, d]
      if 0xd800 ≤ n ∧ n < 0xdc00 ∧ 0xdc00 ≤ m ∧ m < 0xe000 then
        let cs ← decode16 order fuel (p + 4) r'
        return Letter.ofNat (0x10000 + (n - 0xd800) * 1024 + (m - 0xdc00)) :: cs
      else
        let cs ← decode16 order fuel (p + 2) r
        return Letter.ofNat n :: cs
    | _ =>
      let cs ← decode16 order fuel (p + 2) r
      return Letter.ofNat n :: cs

/-- Decode units of four bytes; `fuel` bounds their number. -/
def decode32 (order : ByteOrder) : Nat → Nat → List UInt8 → Except DecodeError (List Letter)
  | 0, _, _ => .ok []
  | _, _, [] => .ok []
  | fuel + 1, p, a :: b :: c :: d :: r => do
    let n := unit order [a, b, c, d]
    if 0x110000 ≤ n then
      throw ⟨"utf-32-" ++ orderName order, p, p + 4, a, "code point not in range(0x110000)"⟩
    let cs ← decode32 order fuel (p + 4) r
    return Letter.ofNat n :: cs
  | _, p, a :: r => .error ⟨"utf-32-" ++ orderName order, p, p + 1 + r.length, a, truncated⟩

/-- Decode a byte string in the given encoding; a byte order mark is not part of the text. -/
def decode (e : Encoding) (bs : List UInt8) : Except DecodeError Text :=
  match e with
  | .utf8 => (decode8 bs.length 0 bs).map Text.ofList
  | .utf8Marked => (decode8 bs.length 0 (bs.drop 3)).map Text.ofList
  | .utf16 order marked =>
    let skip := if marked then 2 else 0
    (decode16 order bs.length skip (bs.drop skip)).map Text.ofList
  | .utf32 order marked =>
    let skip := if marked then 4 else 0
    (decode32 order bs.length skip (bs.drop skip)).map Text.ofList

end Encoding
end Paging.Text
