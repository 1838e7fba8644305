/-!
# Binary64

IEEE 754 double-precision numbers as bit patterns. A finite number is its significand times two
to the power of its scale less 1075, with a sign; arithmetic on finite numbers is exact rational
arithmetic followed by one rounding to nearest, ties to even.
-/

namespace IssueBridge

/-- A double-precision number, given by its bit pattern. -/
structure Binary64 where
  bits : UInt64
  deriving DecidableEq, Inhabited

namespace Binary64

/-- The sign bit is set. -/
def negative (x : Binary64) : Bool :=
  decide (Nat.pow 2 63 ≤ x.bits.toNat)

/-- The biased exponent. -/
def exponentField (x : Binary64) : Nat :=
  x.bits.toNat / Nat.pow 2 52 % Nat.pow 2 11

/-- The stored part of the significand. -/
def fractionField (x : Binary64) : Nat :=
  x.bits.toNat % Nat.pow 2 52

/-- Neither an infinity nor a NaN. -/
def isFinite (x : Binary64) : Bool :=
  x.exponentField != 2047

def isNaN (x : Binary64) : Bool :=
  x.exponentField == 2047 && x.fractionField != 0

/-- The significand as a whole number below `2 ^ 53`. -/
def significand (x : Binary64) : Nat :=
  if x.exponentField = 0 then x.fractionField else Nat.pow 2 52 + x.fractionField

/-- The exponent of two that goes with the significand, plus 1075. -/
def scale (x : Binary64) : Nat :=
  max x.exponentField 1

/-- The magnitude of a finite number as a numerator and a denominator. -/
def ratio (x : Binary64) : Nat × Nat :=
  (x.significand * Nat.pow 2 (x.scale - 1075), Nat.pow 2 (1075 - x.scale))

/-- The value of a finite whole number. -/
def toInt? (x : Binary64) : Option Int :=
  let (num, den) := x.ratio
  if x.isFinite ∧ num % den = 0 then
    some (if x.negative then -((num / den : Nat) : Int) else (num / den : Nat))
  else none

/-- The pattern with the given sign and magnitude bits. -/
def ofCode (negative : Bool) (code : Nat) : Binary64 :=
  ⟨UInt64.ofNat ((if negative then Nat.pow 2 63 else 0) + code)⟩

/-- The magnitude bits of an infinity. -/
def infinityCode : Nat :=
  2047 * Nat.pow 2 52

/-- A quiet NaN. -/
def nan : Binary64 :=
  ofCode false (infinityCode + Nat.pow 2 51)

def infinity (negative : Bool) : Binary64 :=
  ofCode negative infinityCode

def zero (negative : Bool) : Binary64 :=
  ofCode negative 0

/-- The quotient rounded to the nearest whole number, a half to the even neighbour. -/
def roundDiv (num den : Nat) : Nat :=
  let n := num / den
  let twice := 2 * (num % den)
  if twice < den ∨ (twice = den ∧ n % 2 = 0) then n else n + 1

/-- The fraction `num / den` divided by two to the power `q`. -/
def rescale (num den : Nat) (q : Int) : Nat × Nat :=
  (num * Nat.pow 2 (-q).toNat, den * Nat.pow 2 q.toNat)

/-- The exponent of two that leaves `num / den` with 53 significant bits, or the least one. -/
def exponentFor (num den : Nat) : Int :=
  let guess : Int := (num.log2 : Int) - den.log2
  let (n, d) := rescale num den guess
  let log : Int := if n < d then guess - 1 else guess
  max (log - 52) (-1074)

/-- The double nearest to `num / den` with the given sign; ties go to the even significand and
what is too large becomes an infinity. -/
def nearest (negative : Bool) (num den : Nat) : Binary64 :=
  if num = 0 then zero negative
  else
    let q := exponentFor num den
    let (n, d) := rescale num den q
    let code := (q + 1074).toNat * Nat.pow 2 52 + roundDiv n d
    ofCode negative (min code infinityCode)

/-- The double nearest to a whole number. -/
def ofInt (n : Int) : Binary64 :=
  nearest (n < 0) n.natAbs 1

/-- The double nearest to `digits` times ten to the power `exponent`. -/
def ofDecimal (negative : Bool) (digits : Nat) (exponent : Int) : Binary64 :=
  let places : Int := (Nat.toDigits 10 digits).length + exponent
  if digits = 0 ∨ places < -400 then zero negative
  else if places > 400 then infinity negative
  else nearest negative (digits * Nat.pow 10 exponent.toNat) (Nat.pow 10 (-exponent).toNat)

/-- The product of two finite magnitudes. -/
def mulMagnitude (x y : Binary64) : Binary64 :=
  nearest false (x.ratio.1 * y.ratio.1) (x.ratio.2 * y.ratio.2)

/-- The quotient of two finite magnitudes, the second not zero. -/
def divMagnitude (x y : Binary64) : Binary64 :=
  nearest false (x.ratio.1 * y.ratio.2) (x.ratio.2 * y.ratio.1)

def neg (x : Binary64) : Binary64 :=
  if x.negative then ⟨UInt64.ofNat (x.bits.toNat - Nat.pow 2 63)⟩
  else ⟨UInt64.ofNat (x.bits.toNat + Nat.pow 2 63)⟩

end Binary64

end IssueBridge
