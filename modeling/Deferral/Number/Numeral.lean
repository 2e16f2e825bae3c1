/-
# Deferral.Number.Numeral -- integers as decimal text

Numerals are written without leading zeros, or with a fixed number of digits in
a timestamp. Reading accepts the digits of any script, one underscore between
digits, a sign, and blanks around the whole. A numeral of more than `maxDigits`
digits is neither read nor written.
-/

import Deferral.Number.Power
import Deferral.Text.Blank
import Deferral.Text.Digit

namespace Deferral

/-- The most digits of a numeral that is converted. -/
def maxDigits : Nat := 4300

/-! ## Writing -/

/-- The decimal digits of a number before those already written. -/
def decimalOnto (n : Nat) (done : List Char) : List Char :=
  if n < 10 then digitChar n :: done
  else decimalOnto (n / 10) (digitChar (n % 10) :: done)
termination_by n

/-- The decimal digits of a number. -/
def decimal (n : Nat) : List Char := decimalOnto n []

/-- The last `width` decimal digits of a number, with leading zeros. -/
def decimalFixed : Nat → Nat → List Char
  | 0, _ => []
  | width + 1, n => decimalFixed width (n / 10) ++ [digitChar (n % 10)]

/-- The decimal digits of an integer, with a minus sign if it is negative. -/
def decimalInt (n : Int) : List Char :=
  if n < 0 then '-' :: decimal n.natAbs else decimal n.natAbs

/-- The numeral of an integer, unless it has too many digits. -/
def numeral? (n : Int) : Option (List Char) :=
  if n.natAbs < tenTo maxDigits then some (decimalInt n) else none

/-! ## Reading -/

/-- The number that a string of digits denotes in a base. -/
def valueOfDigits (base : Nat) (digits : List Nat) : Nat :=
  digits.foldl (fun value digit => value * base + digit) 0

/-- The number that ASCII digits denote. -/
def valueOfAscii (digits : List Char) : Nat := valueOfDigits 10 (digits.map asciiDigitValue)

/-- The values of digits with single underscores between them. -/
def digitValues? : List Char → Option (List Nat)
  | [] => none
  | [c] => (digitValue? c).map ([·])
  | c :: '_' :: rest => do
    let value ← digitValue? c
    let values ← digitValues? rest
    return value :: values
  | c :: rest => do
    let value ← digitValue? c
    let values ← digitValues? rest
    return value :: values

/-- A sign and the text after it. -/
def splitSign : List Char → Bool × List Char
  | '-' :: rest => (true, rest)
  | '+' :: rest => (false, rest)
  | text => (false, text)

/-- An integer with the given sign. -/
def withSign (negative : Bool) (n : Nat) : Int := if negative then -(n : Int) else n

/-- The integer that a text denotes. -/
def readInteger? (text : List Char) : Option Int := do
  let (negative, digits) := splitSign (stripOf isNumeralBlank text)
  let values ← digitValues? digits
  if values.length ≤ maxDigits then some (withSign negative (valueOfDigits 10 values)) else none

end Deferral
