/-
# Deferral.Number.Shortest -- doubles as decimal text

A finite double is written with the fewest digits that read back as the same
double, and with those of them nearest to it. The reals that read as a double
are an interval; of the points of a decimal grid that fall into it one is a
neighbour of the double, so it is enough to try the two neighbours for one digit,
two digits, and so on.
-/

import Deferral.Number.Binary64
import Deferral.Number.Numeral

namespace Deferral

/-- A decimal number: an integer times a power of ten. -/
structure DecimalForm where
  /-- The digits as an integer. -/
  digits : Nat
  /-- The exponent of the power of ten. -/
  exponent : Int
deriving DecidableEq, Repr

namespace Binary64

/-- Quarter units of the significand: the double and the ends of the interval of
reals that read as it are integers in this unit. -/
structure Quarters where
  /-- The lower end. -/
  low : Nat
  /-- The double. -/
  value : Nat
  /-- The upper end. -/
  high : Nat
  /-- The ends read as the double, too. -/
  closed : Bool

/-- The interval of a finite double. Below a power of two, doubles lie closer. -/
def quarters (x : Binary64) : Quarters where
  low := 4 * x.significand -
    (if x.significand = twoTo 52 ∧ 1 < (x.exponentField : Nat) then 1 else 2)
  value := 4 * x.significand
  high := 4 * x.significand + 2
  closed := x.significand % 2 == 0

/-- The point `digits * num / den` lies in the interval. -/
def Quarters.contains (q : Quarters) (digits num den : Nat) : Bool :=
  let point := digits * num
  if q.closed then q.low * den ≤ point && point ≤ q.high * den
  else q.low * den < point && point < q.high * den

/-- How many of 1, 10, 100, … are at most `num / den`; `fuel` of them are tried. -/
def tensWithin (num den : Nat) : Nat → Nat
  | 0 => 0
  | fuel + 1 => if num < den then 0 else tensWithin num (den * 10) fuel + 1

/-- How often `num / den` has to be multiplied by ten to reach 1; `fuel` times are
tried. -/
def tensMissing (num den : Nat) : Nat → Nat
  | 0 => 0
  | fuel + 1 => if den ≤ num then 0 else tensMissing (num * 10) den fuel + 1

/-- The exponent of the least power of ten above `num / den`. -/
def magnitude (num den : Nat) : Int :=
  if den ≤ num then tensWithin num den 400 else 1 - (tensMissing num den 400 : Int)

/-- The neighbour of the double on the grid of step `num / den` that reads back, and
the nearer one if both do. -/
def neighbour? (q : Quarters) (num den : Nat) : Option Nat :=
  let below := q.value * den / num
  match q.contains below num den, q.contains (below + 1) num den with
  | true, true =>
    -- Both read back: the nearer one is taken, and of two as near the even one.
    let rest := q.value * den % num
    if 2 * rest < num then some below
    else if num < 2 * rest then some (below + 1)
    else if below % 2 = 0 then some below
    else some (below + 1)
  | true, false => some below
  | false, true => some (below + 1)
  | false, false => none

/-- The neighbour that reads back on the first of `fuel` grids where one does. The
first step is `10 ^ step`, and each one is a tenth of the one before. -/
def searchGrids (x : Binary64) (step : Int) : Nat → DecimalForm
  | 0 => ⟨0, step⟩
  | fuel + 1 =>
    let shift := x.exponent - 2
    match neighbour? x.quarters (tenTo step.toNat * twoTo (-shift).toNat)
        (tenTo (-step).toNat * twoTo shift.toNat) with
    | some digits => ⟨digits, step⟩
    | none => searchGrids x (step - 1) fuel

/-- The shortest decimal number that reads as a finite double other than zero. -/
def shortest (x : Binary64) : DecimalForm :=
  searchGrids x (magnitude x.numerator x.denominator - 1) 17

/-! ## Text -/

/-- A text without the zeros at its end. -/
def dropTrailingZeros (digits : List Char) : List Char :=
  (digits.reverse.dropWhile (· == '0')).reverse

/-- Digits with the point after `point` of them, where `-4 < point ≤ 16`. -/
def positional (digits : List Char) (point : Int) : List Char :=
  if point ≤ 0 then '0' :: '.' :: List.replicate (-point).toNat '0' ++ digits
  else if digits.length ≤ point.toNat then
    digits ++ List.replicate (point.toNat - digits.length) '0' ++ ['.', '0']
  else digits.take point.toNat ++ '.' :: digits.drop point.toNat

/-- An exponent with its sign and at least two digits. -/
def exponentText (e : Int) : List Char :=
  (if e < 0 then '-' else '+') ::
    (if e.natAbs < 10 then '0' :: decimal e.natAbs else decimal e.natAbs)

/-- Digits with the point after the first one, and an exponent. -/
def scientific (digits : List Char) (point : Int) : List Char :=
  digits.take 1 ++ (if digits.length ≤ 1 then [] else '.' :: digits.drop 1) ++
    'e' :: exponentText (point - 1)

/-- The text of a size. Numbers from `1e-4` to below `1e16` are written without an
exponent. -/
def sizeText (x : Binary64) : List Char :=
  if x.isNaN then "nan".toList
  else if x.isInfinite then "inf".toList
  else if x.isZero then "0.0".toList
  else
    let digits := decimal x.shortest.digits
    let point := x.shortest.exponent + digits.length
    if -4 < point ∧ point ≤ 16 then positional (dropTrailingZeros digits) point
    else scientific (dropTrailingZeros digits) point

/-- The text of a double. -/
def text (x : Binary64) : List Char :=
  if x.negative && !x.isNaN then '-' :: x.sizeText else x.sizeText

end Binary64

end Deferral
