import Paging.Decimal.Shortest

/-!
How a floating-point number is written: the shortest digits, in positional form while the power of
ten of the first digit lies in a given range, and with an exponent outside it.
-/

namespace Paging.Decimal

/-- The choices of a written form. A whole number keeps `.0` in positional form in every style, and
an exponent always has its sign. -/
structure Style where
  /-- The least power of ten of the first digit that is written positionally. -/
  lowest : Int
  /-- The greatest power of ten of the first digit that is written positionally. -/
  highest : Int
  /-- The least number of digits of an exponent. -/
  exponentWidth : Nat
  nan : String
  infinity : String

namespace Style

def pad (width : Nat) (cs : List Char) : List Char :=
  List.replicate (width - cs.length) '0' ++ cs

/-- The digits `ds` with `k` the power of ten of the first, in positional form. -/
def positional (ds : List Char) (k : Int) : List Char :=
  if k < 0 then '0' :: '.' :: List.replicate (-k - 1).toNat '0' ++ ds
  else
    let n := k.toNat + 1
    if ds.length ≤ n then ds ++ List.replicate (n - ds.length) '0' ++ ['.', '0']
    else ds.take n ++ '.' :: ds.drop n

/-- The digits `ds` with `k` the power of ten of the first, with an exponent. -/
def scientific (st : Style) (ds : List Char) (k : Int) : List Char :=
  let fraction := match ds with
    | c :: r => if r.isEmpty then [c] else c :: '.' :: r
    | [] => []
  fraction ++ 'e' :: (if k < 0 then '-' else '+') ::
    pad st.exponentWidth (Nat.toDigits 10 k.natAbs)

def magnitude (st : Style) (x : Magnitude) : List Char :=
  if x.mantissa = 0 then ['0', '.', '0']
  else
    let d := x.shortest
    let ds := Nat.toDigits 10 d.digits
    let k : Int := d.exponent + ds.length - 1
    if st.lowest ≤ k ∧ k ≤ st.highest then positional ds k else st.scientific ds k

def render (st : Style) : Binary64 → String
  | .nan => st.nan
  | .infinite negative => if negative then "-" ++ st.infinity else st.infinity
  | .finite negative x =>
    String.ofList (if negative then '-' :: st.magnitude x else st.magnitude x)

end Style

end Paging.Decimal
