/-!
# Binary quotients

Shares and rates are computed with 53 significant bits, the precision of the IEEE 754 format
binary64. `Binary64.ofRatio` is the correctly rounded quotient of two natural numbers: the nearest
number `significand * 2 ^ exponent` whose significand has 53 bits, and of two equally near ones the
one with the even significand. The exponent of a result is not bounded; `Binary64.inRange` tells
which quotients the format itself has room for.
-/

namespace Lojban

/-- The quotient `num / den` rounded to a natural number, a half to the even neighbour. -/
def roundHalfEven (num den : Nat) : Nat :=
  let q := num / den
  let r := num % den
  if 2 * r > den ∨ (2 * r = den ∧ q % 2 = 1) then q + 1 else q

/-- The number `significand * 2 ^ exponent`. -/
structure Binary64 where
  significand : Nat
  exponent : Int
deriving DecidableEq, Repr

namespace Binary64

/-- The number of significant bits. -/
def precision : Nat := 53

/-- `num * 2 ^ (-e) / den` as a pair of natural numbers. -/
def scaled (num den : Nat) (e : Int) : Nat × Nat :=
  if e < 0 then (num * Nat.pow 2 (-e).toNat, den) else (num, den * Nat.pow 2 e.toNat)

/-- The exponent at which the integer part of `num / den` has 53 bits. -/
def exponentOf (num den : Nat) : Int :=
  let e : Int := (num.log2 : Int) - den.log2 - (precision - 1 : Nat)
  let (n, d) := scaled num den e
  if n / d < Nat.pow 2 (precision - 1) then e - 1 else e

/-- The correctly rounded quotient `num / den`. -/
def ofRatio (num den : Nat) : Binary64 :=
  if num = 0 ∨ den = 0 then ⟨0, 0⟩
  else
    let e := exponentOf num den
    let (n, d) := scaled num den e
    ⟨roundHalfEven n d, e⟩

/-- The least number too large for the format: it lies halfway between the largest number that the
format has and `2 ^ 1024`. -/
def limit : Nat := Nat.pow 2 1024 - Nat.pow 2 970

theorem hundred_lt_limit : 100 < limit := by decide +kernel

/-- Whether the format has room for the quotient `num / den`. -/
def inRange (num den : Nat) : Bool :=
  num < limit * den

/-- A natural number, correctly rounded. -/
def ofNat (n : Nat) : Binary64 :=
  ofRatio n 1

/-- The numerator of a value, over the denominator `den`. -/
def num (x : Binary64) : Nat :=
  if x.exponent < 0 then x.significand else x.significand * Nat.pow 2 x.exponent.toNat

/-- The denominator of a value, a power of two. -/
def den (x : Binary64) : Nat :=
  if x.exponent < 0 then Nat.pow 2 (-x.exponent).toNat else 1

/-- The integer part. -/
def floor (x : Binary64) : Nat :=
  x.num / x.den

/-- The correctly rounded product. -/
def mul (x y : Binary64) : Binary64 :=
  ofRatio (x.num * y.num) (x.den * y.den)

/-- The correctly rounded quotient. -/
def div (x y : Binary64) : Binary64 :=
  ofRatio (x.num * y.den) (x.den * y.num)

/-- The value with one decimal place, the nearest one to the exact value and the even one of two
equally near. -/
def toTenths (x : Binary64) : String :=
  let tenths := roundHalfEven (x.num * 10) x.den
  toString (tenths / 10) ++ "." ++ toString (tenths % 10)

end Binary64

/-- The correctly rounded quotient of two integers, cut off toward zero. -/
def truncQuotient (num den : Int) : Int :=
  let size : Int := (Binary64.ofRatio num.natAbs den.natAbs).floor
  if (num < 0) = (den < 0) then size else -size

/-- The share of `part` in `whole` in percent, with one decimal place. Both the quotient and its
product with one hundred are rounded to binary64. The share in nothing is zero. -/
def percentText (part whole : Nat) : String :=
  ((Binary64.ofRatio part whole).mul (.ofNat 100)).toTenths ++ "%"

end Lojban
