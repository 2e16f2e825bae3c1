/-
# Deferral.Number.Typed -- integers as people type them

An integer is typed with ASCII digits. Blanks around it, a plus sign, zeros in front
of it, a fraction of zeros and single underscores between its digits do not count; a
negative integer has no zeros in front. Each reader below drops one of these and
refuses a text in which they stand where they may not.
-/

import Deferral.Number.Numeral

namespace Deferral

/-- The text after a plus sign, which may not go before a minus sign. -/
def dropPlus? : List Char → Option (List Char)
  | '+' :: '-' :: _ => none
  | '+' :: rest => some rest
  | text => some text

/-- The text after zeros and underscores, of which the last one is given. One zero stays
where no other digit follows. -/
def afterZeros? (last : Char) : List Char → Option (List Char)
  | [] => some [last]
  | c :: rest =>
    if c == '0' || c == '_' then afterZeros? c rest
    else if c.isDigit then some (c :: rest)
    else if c == '.' then some (last :: c :: rest)
    else none

/-- A text without zeros in front; it has to begin with a digit or a minus sign. -/
def dropLeadingZeros? : List Char → Option (List Char)
  | [] => none
  | c :: rest =>
    if c == '0' then afterZeros? c rest
    else if c.isDigit || c == '-' then some (c :: rest)
    else none

/-- A text without a fraction, which may hold only zeros. -/
def dropZeroFraction? (text : List Char) : Option (List Char) :=
  match text.dropWhile (· != '.') with
  | [] => some text
  | _ :: fraction =>
    if !fraction.isEmpty && fraction.all (· == '0') then some (text.takeWhile (· != '.')) else none

/-- Two underscores stand next to each other. -/
def hasDoubleUnderscore : List Char → Bool
  | '_' :: '_' :: _ => true
  | _ :: rest => hasDoubleUnderscore rest
  | [] => false

/-- A text without underscores, which may stand neither at an end nor next to each
other. -/
def dropSingleUnderscores? (text : List Char) : Option (List Char) :=
  if text.head? == some '_' || text.getLast? == some '_' || hasDoubleUnderscore text then none
  else some (text.filter (· != '_'))

/-- The number of digits that have no zeros in front. -/
def readShortDigits? : List Char → Option Nat
  | [] => none
  | c :: rest =>
    if (c :: rest).all Char.isDigit && (c != '0' || rest.isEmpty) then
      some (valueOfAscii (c :: rest))
    else none

/-- The integer of digits after a minus sign or none, of limited length. -/
def readShortInteger? (text : List Char) : Option Int :=
  if maxDigits < text.length then none
  else match text with
    | '-' :: digits => (readShortDigits? digits).map fun n => -(n : Int)
    | digits => (readShortDigits? digits).map Int.ofNat

/-- The integer that a typed text denotes. -/
def readTypedInteger? (text : List Char) : Option Int := do
  let text ← dropPlus? (stripOf isNumeralBlank text)
  let text ← dropLeadingZeros? text
  let text ← dropZeroFraction? text
  let text ← dropSingleUnderscores? text
  readShortInteger? text

end Deferral
