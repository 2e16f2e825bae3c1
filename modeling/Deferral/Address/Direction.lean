/-
# Deferral.Address.Direction -- labels that run from right to left

A label with a character of a script that runs from right to left begins with a
letter of such a script, holds no letter of another one, ends with a letter or a
number, apart from marks, and does not mix the two kinds of numbers.
-/

import Deferral.Text.Mark

namespace Deferral

/-- How a character takes part in the direction of a label. -/
inductive Direction where
  | leftToRight
  | rightToLeft
  /-- A number of the kind that the Arabic scripts have. -/
  | arabicNumber
  /-- A number of the common kind. -/
  | number
  /-- A mark, which follows the character before it. -/
  | attached
  | neutral
deriving DecidableEq, Repr

namespace Direction

/-- The ranges of letters that run from right to left. -/
def rightToLeftRanges : List (Nat × Nat) :=
  [(0x5D0, 0x5F4), (0x620, 0x64A), (0x66E, 0x66F), (0x671, 0x6D5), (0x6E5, 0x6E6), (0x6EE, 0x6EF),
   (0x6FA, 0x710), (0x712, 0x72F), (0x74D, 0x7A5), (0x7B1, 0x7EA), (0x7F4, 0x7F5), (0x800, 0x815),
   (0x81A, 0x81A), (0x824, 0x824), (0x828, 0x828), (0x840, 0x858), (0x860, 0x88E), (0x8A0, 0x8C9),
   (0xFE73, 0xFE73), (0x10800, 0x10A00), (0x10A10, 0x10A35), (0x10A60, 0x10AE4),
   (0x10B00, 0x10D23), (0x10E80, 0x10EA9), (0x10EB0, 0x10F45), (0x10F70, 0x10F81),
   (0x10FB0, 0x10FF6), (0x1E800, 0x1E8C4), (0x1E922, 0x1E943), (0x1E94B, 0x1E959)]

/-- The ranges of neutral characters above ASCII. -/
def neutralRanges : List (Nat × Nat) :=
  [(0xB7, 0xB7), (0x2B9, 0x2BA), (0x2C6, 0x2CF), (0x2EC, 0x2EC), (0x375, 0x375), (0x200C, 0x200D),
   (0x2E2F, 0x2E2F), (0x30FB, 0x30FB), (0xA67F, 0xA67F), (0xA717, 0xA71F), (0xA788, 0xA788)]

/-- The ranges of numbers of the Arabic kind. -/
def arabicNumberRanges : List (Nat × Nat) := [(0x660, 0x669), (0x10D30, 0x10D39)]

/-- The ranges of numbers of the common kind. -/
def numberRanges : List (Nat × Nat) := [(0x30, 0x39), (0x6F0, 0x6F9)]

/-- The nonspacing marks that run from left to right nevertheless. -/
def uprightMarks : List Nat := [0xCBF, 0xCC6, 0x11A07, 0x11A08, 0x11C3F]

/-- The direction of a character. -/
def ofChar (c : Char) : Direction :=
  if uprightMarks.contains c.toNat then leftToRight
  else if isNonspacing c then attached
  else if inRanges arabicNumberRanges c then arabicNumber
  else if inRanges numberRanges c then number
  else if c == '-' || inRanges neutralRanges c then neutral
  else if inRanges rightToLeftRanges c then rightToLeft
  else leftToRight

/-- The direction of the last character that is no mark, given the directions from
the end on. -/
def lastOf (backwards : List Direction) : Option Direction :=
  (backwards.dropWhile (· == attached)).head?

end Direction

/-- The characters of a label go together in one direction. -/
def isDirected (label : List Char) : Bool :=
  let directions := label.map Direction.ofChar
  if directions.contains .rightToLeft || directions.contains .arabicNumber then
    directions.head? == some .rightToLeft && !directions.contains .leftToRight &&
      !(directions.contains .arabicNumber && directions.contains .number) &&
      (Direction.lastOf directions.reverse).any
        ([Direction.rightToLeft, .arabicNumber, .number].contains ·)
  else true

end Deferral
