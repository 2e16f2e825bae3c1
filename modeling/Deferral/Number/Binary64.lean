/-
# Deferral.Number.Binary64 -- double-precision numbers, exactly

A double is its sign, exponent field and fraction. Every finite one has an exact
value as a fraction of integers, and `Binary64.ofRatio` is the double nearest to a
fraction, an even significand being preferred between two. Arithmetic is done
on the exact values and rounded once.
-/

import Deferral.Number.Power

namespace Deferral

/-- A double-precision number. -/
structure Binary64 where
  /-- The sign is a minus. -/
  negative : Bool
  /-- The biased exponent; 0 for subnormal numbers, 2047 for infinities and NaN. -/
  exponentField : Fin 2048
  /-- The significand without its leading bit. -/
  fraction : Fin (twoTo 52)
deriving DecidableEq, Repr

/-- A quotient rounded to the nearest integer, and to the even one of two. -/
def roundHalfEven (num den : Nat) : Nat :=
  let quotient := num / den
  let remainder := num % den
  if 2 * remainder < den then quotient
  else if den < 2 * remainder then quotient + 1
  else if quotient % 2 = 0 then quotient
  else quotient + 1

namespace Binary64

/-! ## Words -/

/-- The double of a word of 64 bits. -/
def ofWord (word : Nat) : Binary64 where
  negative := word / twoTo 63 % 2 == 1
  exponentField := Fin.ofNat 2048 (word / twoTo 52)
  fraction := lowBits 52 word

/-- The word of a double. -/
def toWord (x : Binary64) : Nat :=
  x.negative.toNat * twoTo 63 + x.exponentField * twoTo 52 + x.fraction

/-! ## Classes -/

/-- Neither infinite nor NaN. -/
def isFinite (x : Binary64) : Bool := x.exponentField != 2047

/-- An infinity. -/
def isInfinite (x : Binary64) : Bool := x.exponentField == 2047 && x.fraction.val == 0

/-- Not a number. -/
def isNaN (x : Binary64) : Bool := x.exponentField == 2047 && x.fraction.val != 0

/-- Zero, of either sign. -/
def isZero (x : Binary64) : Bool := x.exponentField == 0 && x.fraction.val == 0

/-- The zero of a sign. -/
def zero (negative : Bool) : Binary64 := ⟨negative, 0, lowBits 52 0⟩

/-- The infinity of a sign. -/
def infinity (negative : Bool) : Binary64 := ⟨negative, 2047, lowBits 52 0⟩

/-- The result of an operation that has none. -/
def nan : Binary64 := ⟨true, 2047, lowBits 52 (twoTo 51)⟩

/-- The number with the other sign. -/
def neg (x : Binary64) : Binary64 := { x with negative := !x.negative }

/-! ## Exact values -/

/-- The integer that is scaled by a power of two. -/
def significand (x : Binary64) : Nat :=
  if x.exponentField = 0 then x.fraction else twoTo 52 + x.fraction

/-- The exponent of that power. -/
def exponent (x : Binary64) : Int :=
  if x.exponentField = 0 then -1074 else (x.exponentField : Nat) - 1075

/-- The numerator of the size of a finite number. -/
def numerator (x : Binary64) : Nat := x.significand * twoTo x.exponent.toNat

/-- The denominator of the size of a finite number. -/
def denominator (x : Binary64) : Nat := twoTo (-x.exponent).toNat

/-- The numerator with its sign. -/
def signedNumerator (x : Binary64) : Int :=
  if x.negative then -(x.numerator : Int) else x.numerator

/-! ## Rounding -/

/-- The exponent for which the significand of a fraction has 53 bits. -/
def scaleOf (num den : Nat) : Int :=
  let guess : Int := (num.log2 : Int) - den.log2
  let size := if num * twoTo (-guess).toNat < den * twoTo guess.toNat then guess - 1 else guess
  max (size - 52) (-1074)

/-- A number of a significand of at most 53 bits; the full size is the next power
of two. -/
def ofSignificand (negative : Bool) (significand : Nat) (exponent : Int) : Binary64 :=
  let (significand, exponent) :=
    if significand = twoTo 53 then (twoTo 52, exponent + 1) else (significand, exponent)
  if significand < twoTo 52 then ⟨negative, 0, lowBits 52 significand⟩
  else if 971 < exponent then infinity negative
  else ⟨negative, Fin.ofNat 2048 (exponent + 1075).toNat, lowBits 52 significand⟩

/-- The number nearest to a fraction. -/
def ofRatio (negative : Bool) (num den : Nat) : Binary64 :=
  if num = 0 then zero negative
  else
    let e := scaleOf num den
    ofSignificand negative (roundHalfEven (num * twoTo (-e).toNat) (den * twoTo e.toNat)) e

/-- The number nearest to an integer. -/
def ofInt (n : Int) : Binary64 := ofRatio (n < 0) n.natAbs 1

/-- The number nearest to an integer in units of `10 ^ -places`. -/
def ofDecimal (negative : Bool) (digits : Nat) (places : Int) : Binary64 :=
  ofRatio negative (digits * tenTo (-places).toNat) (tenTo places.toNat)

/-! ## Arithmetic on sizes -/

/-- The sum of two numbers without sign. -/
def addSizes (x y : Binary64) : Binary64 :=
  if x.isFinite && y.isFinite then
    ofRatio false (x.numerator * y.denominator + y.numerator * x.denominator)
      (x.denominator * y.denominator)
  else infinity false

/-- The product of two numbers without sign. -/
def mulSizes (x y : Binary64) : Binary64 :=
  if x.isFinite && y.isFinite then
    ofRatio false (x.numerator * y.numerator) (x.denominator * y.denominator)
  else infinity false

end Binary64

end Deferral
