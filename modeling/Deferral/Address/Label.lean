/-
# Deferral.Address.Label -- labels of international host names

A host name is a sequence of labels. A label is written in ASCII if it consists
of permitted characters in composed form, has no hyphen at its ends and none in
both of the places that mark the ASCII form, does not begin with a mark, and has
each of the characters that need a neighbourhood in such a one. A label outside
ASCII then gets the prefix of the ASCII form. One that has the prefix already has
to stand for such a label.
-/

import Deferral.Address.Direction
import Deferral.Address.Joining
import Deferral.Address.Letter
import Deferral.Address.Punycode
import Deferral.Text.Composed
import Deferral.Text.Split

namespace Deferral.Label

/-! ## Characters that need a neighbourhood -/

/-- The ranges of Greek letters. -/
def greekRanges : List (Nat × Nat) :=
  [(0x371, 0x373), (0x375, 0x375), (0x377, 0x3E1), (0x3F3, 0x3FC), (0x1D26, 0x1D2A),
   (0x1F00, 0x1FF6), (0xAB65, 0xAB65)]

/-- The ranges of Hebrew letters and marks. -/
def hebrewRanges : List (Nat × Nat) := [(0x591, 0x5F4), (0xFB1E, 0xFB1E)]

/-- The ranges of the Japanese syllables and the Chinese characters. -/
def syllableRanges : List (Nat × Nat) :=
  [(0x3005, 0x3005), (0x3007, 0x3007), (0x3041, 0x3096), (0x309D, 0x309E), (0x30A1, 0x30FA),
   (0x30FD, 0x30FE), (0x31F0, 0x31FF), (0x3400, 0x9FFF), (0xFA0E, 0xFA29), (0x16FE3, 0x16FE3),
   (0x16FF0, 0x16FF1), (0x1AFF0, 0x1B122), (0x1B150, 0x1B152), (0x1B164, 0x1B167),
   (0x20000, 0x3134A)]

/-- The digits of the two Arabic sets. -/
def arabicDigits : List (Nat × Nat) := [(0x660, 0x669)]

@[inherit_doc arabicDigits]
def easternDigits : List (Nat × Nat) := [(0x6F0, 0x6F9)]

/-- A character may stand between two texts in a label; the first one is given
from its end on. -/
def isPlaced (before : List Char) (c : Char) (after : List Char) : Bool :=
  let others := before ++ after
  if isLabelLetter c then true
  else if c = '\u200c' then separatesJoining before after
  else if c = '\u200d' then followsVirama before
  -- The middle dot stands between two letters l only.
  else if c = '\u00b7' then before.head? == some 'l' && after.head? == some 'l'
  else if c = '\u0375' then after.head?.any (inRanges greekRanges)
  else if c = '\u05f3' || c = '\u05f4' then before.head?.any (inRanges hebrewRanges)
  else if c = '\u30fb' then others.any (inRanges syllableRanges)
  else if inRanges arabicDigits c then !others.any (inRanges easternDigits)
  else if inRanges easternDigits c then !others.any (inRanges arabicDigits)
  else false

/-- All characters after a text may stand in a label. -/
def arePlaced (before : List Char) : List Char → Bool
  | [] => true
  | c :: after => isPlaced before c after && arePlaced (c :: before) after

/-! ## Labels -/

/-- The hyphens of a label are in the right places. -/
def hasGoodHyphens (label : List Char) : Bool :=
  label.head? != some '-' && label.getLast? != some '-' && (label.drop 2).take 2 != ['-', '-']

/-- A label keeps the rules for names. -/
def isValid (label : List Char) : Bool :=
  !label.isEmpty && isComposed label && hasGoodHyphens label && !label.head?.any isMark &&
    arePlaced [] label && isDirected label

/-- The most characters of a label in ASCII. -/
def maxLength : Nat := 63

/-- What the ASCII form of a label outside ASCII begins with. -/
def asciiMark : List Char := "xn--".toList

/-- The text after the mark of the ASCII form. -/
def afterMark? (label : List Char) : Option (List Char) :=
  if asciiMark.isPrefixOf label then some (label.drop asciiMark.length) else none

/-- A label in ASCII keeps the rules, or stands for one that does. -/
def isValidAscii (label : List Char) : Bool :=
  let label := label.map Char.toLower
  match afterMark? label with
  | none => isValid label
  | some digits => digits.getLast?.any (· != '-') && (Punycode.decode? digits).any isValid

/-- A label in its ASCII form. -/
def ascii? (label : List Char) : Option (List Char) := do
  let isAscii := isAsciiText label
  guard (if isAscii then isValidAscii label else isValid label)
  let form := if isAscii then label else asciiMark ++ Punycode.encode label
  guard (form.length ≤ maxLength)
  return form

/-! ## Names -/

/-- The full stops of several scripts, any of which may stand between labels. -/
def isStop (c : Char) : Bool := ['.', '\u3002', '\uff0e', '\uff61'].contains c

/-- The most characters of a name in ASCII, apart from a stop at its end. -/
def maxNameLength : Nat := 253

/-- A name of labels in its ASCII form. A stop at the end is kept. -/
def nameInAscii? (name : List Char) : Option (List Char) := do
  let labels := splitAtChar '.' (name.map fun c => if isStop c then '.' else c)
  let ends := labels.getLast? == some []
  let forms ← (if ends then labels.dropLast else labels).mapM ascii?
  guard (!forms.isEmpty)
  let joined := joinWith ['.'] forms
  guard (joined.length ≤ maxNameLength)
  return if ends then joined ++ ['.'] else joined

end Deferral.Label
