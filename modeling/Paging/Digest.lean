import Paging.Text.Utf8

/-!
The MD5 digest of a byte string, as thirty-two hexadecimal digits.
-/

namespace Paging.Digest

structure State where
  a : UInt32
  b : UInt32
  c : UInt32
  d : UInt32
  deriving DecidableEq

def initial : State := ⟨0x67452301, 0xefcdab89, 0x98badcfe, 0x10325476⟩

/-- The constants added in the sixty-four steps, the whole parts of `2^32 · |sin i|`. -/
def sines : List UInt32 :=
  [0xd76aa478, 0xe8c7b756, 0x242070db, 0xc1bdceee, 0xf57c0faf, 0x4787c62a, 0xa8304613, 0xfd469501,
   0x698098d8, 0x8b44f7af, 0xffff5bb1, 0x895cd7be, 0x6b901122, 0xfd987193, 0xa679438e, 0x49b40821,
   0xf61e2562, 0xc040b340, 0x265e5a51, 0xe9b6c7aa, 0xd62f105d, 0x02441453, 0xd8a1e681, 0xe7d3fbc8,
   0x21e1cde6, 0xc33707d6, 0xf4d50d87, 0x455a14ed, 0xa9e3e905, 0xfcefa3f8, 0x676f02d9, 0x8d2a4c8a,
   0xfffa3942, 0x8771f681, 0x6d9d6122, 0xfde5380c, 0xa4beea44, 0x4bdecfa9, 0xf6bb4b60, 0xbebfbc70,
   0x289b7ec6, 0xeaa127fa, 0xd4ef3085, 0x04881d05, 0xd9d4d039, 0xe6db99e5, 0x1fa27cf8, 0xc4ac5665,
   0xf4292244, 0x432aff97, 0xab9423a7, 0xfc93a039, 0x655b59c3, 0x8f0ccc92, 0xffeff47d, 0x85845dd1,
   0x6fa87e4f, 0xfe2ce6e0, 0xa3014314, 0x4e0811a1, 0xf7537e82, 0xbd3af235, 0x2ad7d2bb, 0xeb86d391]

/-- The rotations of the four rounds, each four steps long. -/
def shifts : List (List UInt32) :=
  [[7, 12, 17, 22], [5, 9, 14, 20], [4, 11, 16, 23], [6, 10, 15, 21]]

def rotate (x n : UInt32) : UInt32 := (x <<< n) ||| (x >>> (32 - n))

/-- The mixing function of a round and the word of the block that step `i` adds. -/
def mix (s : State) (i : Nat) : UInt32 × Nat :=
  match i / 16 with
  | 0 => ((s.b &&& s.c) ||| (~~~s.b &&& s.d), i)
  | 1 => ((s.d &&& s.b) ||| (~~~s.d &&& s.c), (5 * i + 1) % 16)
  | 2 => (s.b ^^^ s.c ^^^ s.d, (3 * i + 5) % 16)
  | _ => (s.c ^^^ (s.b ||| ~~~s.d), 7 * i % 16)

def step (block : List UInt32) (s : State) (i : Nat) : State :=
  let (f, g) := mix s i
  let x := f + s.a + sines.getD i 0 + block.getD g 0
  let n := (shifts.getD (i / 16) []).getD (i % 4) 0
  ⟨s.d, s.b + rotate x n, s.b, s.c⟩

def absorb (s : State) (block : List UInt32) : State :=
  let t := (List.range 64).foldl (step block) s
  ⟨s.a + t.a, s.b + t.b, s.c + t.c, s.d + t.d⟩

def littleBytes : Nat → Nat → List UInt8
  | 0, _ => []
  | n + 1, x => UInt8.ofNat x :: littleBytes n (x / 256)

/-- The bytes with the end mark, zeros up to 8 before a multiple of 64, and the length in bits. -/
def padded (bs : List UInt8) : List UInt8 :=
  let zeros := (119 - bs.length % 64) % 64
  bs ++ 0x80 :: List.replicate zeros 0 ++ littleBytes 8 (8 * bs.length)

def wordsOf : List UInt8 → List UInt32
  | a :: b :: c :: d :: r =>
    (a.toUInt32 ||| b.toUInt32 <<< 8 ||| c.toUInt32 <<< 16 ||| d.toUInt32 <<< 24) :: wordsOf r
  | _ => []

/-- Work all words into the digest, sixteen at a time; `fuel` bounds the number of blocks. -/
def absorbAll : Nat → State → List UInt32 → State
  | 0, s, _ => s
  | _, s, [] => s
  | fuel + 1, s, ws => absorbAll fuel (absorb s (ws.take 16)) (ws.drop 16)

def wordHex (w : UInt32) : List Char :=
  (littleBytes 4 w.toNat).flatMap fun b => Text.hex 2 b.toNat

def md5 (bs : List UInt8) : String :=
  let ws := wordsOf (padded bs)
  let s := absorbAll ws.length initial ws
  String.ofList (wordHex s.a ++ wordHex s.b ++ wordHex s.c ++ wordHex s.d)

end Paging.Digest
