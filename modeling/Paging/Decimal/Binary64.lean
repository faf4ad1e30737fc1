/-!
Binary floating-point numbers of 64 bits as exact data: `± m · 2^e` with the mantissa normalised,
so that two finite numbers are equal exactly when their parts are. `Magnitude.ofRatio` rounds a
quotient of naturals to the nearest of them, a half to the even neighbour.
-/

namespace Paging.Decimal

/-- The mantissa has 53 bits, or fewer with the least exponent. -/
def Canonical (m : Nat) (e : Int) : Prop :=
  m < Nat.pow 2 53 ∧ -1074 ≤ e ∧ e ≤ 971 ∧ (Nat.pow 2 52 ≤ m ∨ e = -1074)

instance (m : Nat) (e : Int) : Decidable (Canonical m e) := by
  unfold Canonical; infer_instance

structure Magnitude where
  mantissa : Nat
  exponent : Int
  canonical : Canonical mantissa exponent
  deriving DecidableEq

inductive Binary64
  | nan
  | infinite (negative : Bool)
  | finite (negative : Bool) (size : Magnitude)
  deriving DecidableEq

namespace Magnitude

def zero : Magnitude := ⟨0, -1074, by decide⟩

def num (x : Magnitude) : Nat := x.mantissa * Nat.pow 2 x.exponent.toNat

/-- The denominator of the value as a fraction, a power of two. -/
def den (x : Magnitude) : Nat := Nat.pow 2 (-x.exponent).toNat

def isWhole (x : Magnitude) : Bool := x.num % x.den == 0

def floor (x : Magnitude) : Nat := x.num / x.den

def ofParts? (m : Nat) (e : Int) : Option Magnitude :=
  if h : Canonical m e then some ⟨m, e, h⟩ else none

@[simp] theorem ofParts?_self (x : Magnitude) : ofParts? x.mantissa x.exponent = some x := by
  simp [ofParts?, x.canonical]

/-- `num / den` to the nearest natural, a half to the even one. -/
def roundHalfEven (num den : Nat) : Nat :=
  let q := num / den
  let r := num % den
  if 2 * r < den then q else if den < 2 * r then q + 1 else q + q % 2

/-- `num / den` over `2^e`, as a pair of naturals. -/
def scale (num den : Nat) (e : Int) : Nat × Nat :=
  (num * Nat.pow 2 (-e).toNat, den * Nat.pow 2 e.toNat)

/-- The exponent at which `num / den` has a mantissa of 53 bits, never below the least one. -/
def exponentOf (num den : Nat) : Int :=
  let e : Int := (Nat.log2 num : Int) - (Nat.log2 den : Int) - 52
  let s := scale num den e
  max (-1074) (if s.1 / s.2 < Nat.pow 2 52 then e - 1 else e)

/-- The number nearest to `num / den`; none if it is too large. -/
def ofRatio (num den : Nat) : Option Magnitude :=
  if num = 0 then some zero
  else
    let e := exponentOf num den
    let s := scale num den e
    let m := roundHalfEven s.1 s.2
    if m = Nat.pow 2 53 then ofParts? (Nat.pow 2 52) (e + 1) else ofParts? m e

/-- The number nearest to `digits · 10^e`; none if it is too large. The two bounds spare the powers
of ten of a value that is far outside the range. -/
def ofDecimal (digits : Nat) (e : Int) : Option Magnitude :=
  let places : Int := (Nat.toDigits 10 digits).length + e
  if digits = 0 then some zero
  else if 310 < places then none
  else if places < -330 then some zero
  else ofRatio (digits * Nat.pow 10 e.toNat) (Nat.pow 10 (-e).toNat)

end Magnitude

namespace Binary64

/-- The number nearest to `± digits · 10^e`, an infinity if that is too large. -/
def ofDecimal (negative : Bool) (digits : Nat) (e : Int) : Binary64 :=
  match Magnitude.ofDecimal digits e with
  | some x => .finite negative x
  | none => .infinite negative

def isZero : Binary64 → Bool
  | .finite _ x => x.mantissa == 0
  | _ => false

/-- The whole number that equals the value, if there is one. -/
def toInt? : Binary64 → Option Int
  | .finite negative x =>
    if x.isWhole then some (if negative then -(x.floor : Int) else x.floor) else none
  | _ => none

end Binary64

end Paging.Decimal
