import Paging.Decimal.Binary64

/-!
The fewest decimal digits that read back as a given number. On the grid of `n` digits only the two
neighbours of the value can read back, so the first grid on which one of them does is searched for;
of two the nearer wins, and a tie goes to the even one. Seventeen digits always suffice; the exact
expansion behind them keeps the search total.
-/

namespace Paging.Decimal

structure Numeral where
  digits : Nat
  exponent : Int
  deriving DecidableEq

namespace Numeral

def width (n : Nat) : Nat := (Nat.toDigits 10 n).length

/-- Move the zeros at the end of the digits into the exponent, `fuel` of them at most. -/
def trimZeros : Nat → Numeral → Numeral
  | 0, d => d
  | fuel + 1, d =>
    if d.digits ≠ 0 ∧ d.digits % 10 = 0 then trimZeros fuel ⟨d.digits / 10, d.exponent + 1⟩ else d

end Numeral

namespace Magnitude

/-- Does the decimal read back as this number? -/
def readsBack (x : Magnitude) (d : Numeral) : Bool :=
  ofDecimal d.digits d.exponent = some x

/-- The power of ten of the first digit of `num / den`. -/
def leadingPower (num den : Nat) : Int :=
  if den ≤ num then Numeral.width (num / den) - 1
  else
    let c := (den + num - 1) / num
    if c ≤ 1 then 0 else -(Numeral.width (c - 1) : Int)

/-- The neighbour of the value on the grid `10^e` that reads back, the nearer if both do. -/
def neighbour? (x : Magnitude) (e : Int) : Option Numeral :=
  let num := x.num * Nat.pow 10 (-e).toNat
  let den := x.den * Nat.pow 10 e.toNat
  let lo : Numeral := ⟨num / den, e⟩
  let hi : Numeral := ⟨num / den + 1, e⟩
  let r := num % den
  let lowFirst := 2 * r < den || (2 * r == den && lo.digits % 2 == 0)
  let near := if lowFirst then lo else hi
  let far := if lowFirst then hi else lo
  if x.readsBack near then some near else if x.readsBack far then some far else none

/-- All digits of the value. -/
def exact (x : Magnitude) : Numeral :=
  ⟨x.num * Nat.pow 5 (-x.exponent).toNat, -((-x.exponent).toNat : Int)⟩

def shortest (x : Magnitude) : Numeral :=
  let k := leadingPower x.num x.den
  let found := (List.range 17).findSome? fun (n : Nat) => x.neighbour? (k - n)
  let d := found.getD x.exact
  d.trimZeros (Numeral.width d.digits)

end Magnitude

end Paging.Decimal
