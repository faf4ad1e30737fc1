import Paging.Text.Quoted

/-!
UTF-8. `Utf8.step` reads one character off a byte string or says what is wrong with the bytes in
front; the strict, the replacing and the dropping decoder differ only in what they make of the
latter.
-/

namespace Paging.Text

/-- Bytes that cannot be decoded: the encoding, the span `[first, last)`, the first of the bytes and
the reason. -/
structure DecodeError where
  encoding : String
  first : Nat
  last : Nat
  byte : UInt8
  reason : String
  deriving DecidableEq

def DecodeError.message (e : DecodeError) : String :=
  let place :=
    if e.last = e.first + 1 then
      "byte 0x" ++ String.ofList (hex 2 e.byte.toNat) ++ " in position " ++ toString e.first
    else "bytes in position " ++ toString e.first ++ "-" ++ toString (e.last - 1)
  "'" ++ e.encoding ++ "' codec can't decode " ++ place ++ ": " ++ e.reason

namespace Utf8

/-- What stands in front of a byte string: a character or a fault, with the bytes it takes. -/
inductive Step
  | char (c : Char) (used : Nat)
  | fault (reason : String) (used : Nat)

def badStart : String := "invalid start byte"

def badContinuation : String := "invalid continuation byte"

def cutShort : String := "unexpected end of data"

def isTail (b : UInt8) : Bool := 0x80 ≤ b && b < 0xc0

/-- May `b` follow the leading byte `a` of three or four? The exceptions rule out overlong forms,
surrogates and what lies beyond the last code point. -/
def mayFollow (a b : UInt8) : Bool :=
  isTail b &&
    !(a == 0xe0 && b < 0xa0) && !(a == 0xed && 0xa0 ≤ b) && !(a == 0xf0 && b < 0x90) &&
    !(a == 0xf4 && 0x90 ≤ b)

def low6 (b : UInt8) : Nat := b.toNat % 64

/-- The first character of the byte string `a :: r`. -/
def step (a : UInt8) (r : List UInt8) : Step :=
  if a < 0x80 then .char (Char.ofNat a.toNat) 1
  else if a < 0xc2 then .fault badStart 1
  else if a < 0xe0 then
    match r with
    | [] => .fault cutShort 1
    | b :: _ =>
      if isTail b then .char (Char.ofNat ((a.toNat - 0xc0) * 64 + low6 b)) 2
      else .fault badContinuation 1
  else if a < 0xf0 then
    match r with
    | [] => .fault cutShort 1
    | b :: r =>
      if !(mayFollow a b) then .fault badContinuation 1
      else match r with
        | [] => .fault cutShort 2
        | c :: _ =>
          if isTail c then
            .char (Char.ofNat ((a.toNat - 0xe0) * 4096 + low6 b * 64 + low6 c)) 3
          else .fault badContinuation 2
  else if a < 0xf5 then
    match r with
    | [] => .fault cutShort 1
    | b :: r =>
      if !(mayFollow a b) then .fault badContinuation 1
      else match r with
        | [] => .fault cutShort 2
        | c :: r =>
          if !(isTail c) then .fault badContinuation 2
          else match r with
            | [] => .fault cutShort 3
            | d :: _ =>
              if isTail d then
                .char (Char.ofNat
                  ((a.toNat - 0xf0) * 262144 + low6 b * 4096 + low6 c * 64 + low6 d)) 4
              else .fault badContinuation 3
  else .fault badStart 1

/-- The steps through a byte string, each with its position; `fuel` bounds their number. -/
def steps : Nat → Nat → List UInt8 → List (Nat × UInt8 × Step)
  | 0, _, _ => []
  | _, _, [] => []
  | fuel + 1, at_, a :: r =>
    let s := step a r
    let used := match s with
      | .char _ n => n
      | .fault _ n => n
    (at_, a, s) :: steps fuel (at_ + used) ((a :: r).drop used)

def walk (bs : List UInt8) : List (Nat × UInt8 × Step) :=
  steps bs.length 0 bs

def decodeFrom (offset : Nat) (bs : List UInt8) : Except DecodeError String := do
  let cs ← (walk bs).mapM fun s => match s with
    | (_, _, .char c _) => Except.ok c
    | (p, a, .fault why n) => Except.error ⟨"utf-8", offset + p, offset + p + n, a, why⟩
  return String.ofList cs

def decode (bs : List UInt8) : Except DecodeError String :=
  decodeFrom 0 bs

/-- Decode, with a replacement character for each fault. -/
def decodeReplacing (bs : List UInt8) : List Char :=
  (walk bs).map fun s => match s with
    | (_, _, .char c _) => c
    | (_, _, .fault _ _) => Char.ofNat 0xfffd

/-- Decode, dropping the faults. -/
def decodeDropping (bs : List UInt8) : String :=
  String.ofList ((walk bs).filterMap fun s => match s with
    | (_, _, .char c _) => some c
    | (_, _, .fault _ _) => none)

/-- The bytes of a code point; half a pair alone takes three, as any other of its size. -/
def encodeLetter (c : Letter) : List UInt8 :=
  let n := c.toNat
  let tail (k : Nat) : UInt8 := UInt8.ofNat (0x80 + n / Nat.pow 64 k % 64)
  if n < 0x80 then [UInt8.ofNat n]
  else if n < 0x800 then [UInt8.ofNat (0xc0 + n / 64), tail 0]
  else if n < 0x10000 then [UInt8.ofNat (0xe0 + n / 4096), tail 1, tail 0]
  else [UInt8.ofNat (0xf0 + n / 262144), tail 2, tail 1, tail 0]

def encode (s : Text) : List UInt8 :=
  s.toList.flatMap encodeLetter

end Utf8
end Paging.Text
