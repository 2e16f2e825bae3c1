/-
# Deferral.Text.Hex -- hexadecimal digits

Codes of characters and bytes are written in base sixteen, with small or capital
letters for the digits from ten on. Both are read.
-/

import Deferral.Text.Digit

namespace Deferral

/-- The hexadecimal digit of a value below sixteen, with letters from `first` on. -/
def hexDigitFrom (first : Char) (d : Nat) : Char :=
  if d < 10 then digitChar d else Char.ofNat (first.toNat + (d - 10))

/-- The last `width` hexadecimal digits of a number, with leading zeros. -/
def hexFixedFrom (first : Char) : Nat → Nat → List Char
  | 0, _ => []
  | width + 1, n => hexFixedFrom first width (n / 16) ++ [hexDigitFrom first (n % 16)]

/-- A hexadecimal digit. -/
def isHexDigit (c : Char) : Bool :=
  c.isDigit || ('a' ≤ c && c ≤ 'f') || ('A' ≤ c && c ≤ 'F')

/-- The value of a hexadecimal digit. -/
def hexValue (c : Char) : Nat :=
  if c.isDigit then c.toNat - 48
  else if 'a' ≤ c then c.toNat - 87
  else c.toNat - 55

end Deferral
