/-
# Deferral.Text.Blank -- blank characters

Blanks separate the words of a directive and surround a timestamp or a number.
The class is the Unicode one: the line and tabulation controls, the four
information separators, and every space separator.
-/

namespace Deferral

/-- The code points that count as blank. -/
def blankCodes : List Nat :=
  [0x09, 0x0A, 0x0B, 0x0C, 0x0D, 0x1C, 0x1D, 0x1E, 0x1F, 0x20, 0x85, 0xA0, 0x1680,
   0x2000, 0x2001, 0x2002, 0x2003, 0x2004, 0x2005, 0x2006, 0x2007, 0x2008, 0x2009, 0x200A,
   0x2028, 0x2029, 0x202F, 0x205F, 0x3000]

/-- A blank character. -/
def isBlank (c : Char) : Bool := blankCodes.contains c.toNat

/-- The blanks that may surround a numeral: the information separators are not
among them. -/
def isNumeralBlank (c : Char) : Bool := isBlank c && !(0x1C ≤ c.toNat && c.toNat ≤ 0x1F)

/-- A text without its first and last characters of a class. -/
def stripOf (drops : Char → Bool) (text : List Char) : List Char :=
  ((text.dropWhile drops).reverse.dropWhile drops).reverse

/-- A text without the blanks at its two ends. -/
def stripBlanks (text : List Char) : List Char := stripOf isBlank text

end Deferral
