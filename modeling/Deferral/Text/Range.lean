/-
# Deferral.Text.Range -- classes of characters by ranges

A class of characters that has no short rule is a table of ranges of code points.
ASCII is the first range.
-/

namespace Deferral

/-- The code point of a character lies in one of the ranges, ends included. -/
def inRanges (ranges : List (Nat × Nat)) (c : Char) : Bool :=
  ranges.any fun range => range.1 ≤ c.toNat && c.toNat ≤ range.2

/-- A text of ASCII characters. -/
def isAsciiText (text : List Char) : Bool := text.all (·.toNat < 0x80)

end Deferral
