/-
# Deferral.Text.Caseless -- words without regard to case

The words of a directive are ASCII, and a text spells such a word when its
characters, one by one, lower to those of the word. Beside the capital letters
only the Kelvin sign lowers to an ASCII letter, and no character that lowers to
several can take part.
-/

namespace Deferral

/-- The ASCII character that `c` lowers to, or `c` itself where there is none. -/
def lowerToAscii (c : Char) : Char :=
  if 'A' ≤ c ∧ c ≤ 'Z' then Char.ofNat (c.toNat + 32)
  else if c = '\u212a' then 'k'
  else c

/-- The rest of a text after a word, which is written in lower case. -/
def dropWord? : List Char → List Char → Option (List Char)
  | [], text => some text
  | _ :: _, [] => none
  | w :: word, c :: text => if lowerToAscii c = w then dropWord? word text else none

/-- A text begins with a word. -/
def startsWithWord (word text : List Char) : Bool := (dropWord? word text).isSome

/-- The first of several words that a text begins with, and the rest after it. -/
def dropOneOf? {α : Type} (words : List (List Char × α)) (text : List Char) :
    Option (α × List Char) :=
  words.findSome? fun word => (dropWord? word.1 text).map (word.2, ·)

end Deferral
