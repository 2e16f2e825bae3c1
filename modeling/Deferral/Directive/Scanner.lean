/-
# Deferral.Directive.Scanner -- bounded numbers at a cursor

The numbers of a clock reading have a greatest value, and of two digits that
exceed it the first may still be a number. A scanner is a text with a cursor. To
take a bounded number it goes past the digits at the cursor, and back by one
digit for as long as their number is too large. Where no number fits, the cursor
is put back to where it was.
-/

import Deferral.Number.Numeral

namespace Deferral

/-- A text and a place in it. -/
structure Scanner where
  /-- The whole text. -/
  text : List Char
  /-- How many characters are before the cursor. -/
  position : Nat
deriving DecidableEq

namespace Scanner

/-- The text from the cursor on. -/
def rest (s : Scanner) : List Char := s.text.drop s.position

/-- The digits at the cursor, `longest` of them at most. The cursor goes past
them, unless they are fewer than `shortest`. -/
def takeDigits (shortest longest : Nat) (s : Scanner) : Option (List Char) × Scanner :=
  let digits := (s.rest.take longest).takeWhile Char.isDigit
  if digits.length < shortest then (none, s)
  else (some digits, { s with position := s.position + digits.length })

/-- The number of the first `length` digits, if it does not exceed `maximum`.
Otherwise the last of them is given back, and after `shortest` digits all of
them: the cursor is then at `start` again. -/
def backOff (maximum shortest start : Nat) (digits : List Char) :
    Nat → Scanner → Option Nat × Scanner
  | 0, s => (none, { s with position := start })
  | length + 1, s =>
    if valueOfAscii (digits.take (length + 1)) ≤ maximum then
      (some (valueOfAscii (digits.take (length + 1))), s)
    else if length + 1 ≤ shortest then (none, { s with position := start })
    else backOff maximum shortest start digits length { s with position := start + length }

/-- The number of `shortest` to `longest` digits at the cursor, as many as
possible, that does not exceed `maximum`. -/
def takeBounded (maximum shortest longest : Nat) (s : Scanner) : Option Nat × Scanner :=
  match s.takeDigits shortest longest with
  | (none, after) => (none, { after with position := s.position })
  | (some digits, after) => backOff maximum shortest s.position digits digits.length after

end Scanner

end Deferral
