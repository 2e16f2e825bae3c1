/-
# Deferral.Directive.Grammar -- the phrases of directives

A directive is a token and, after blanks, a moment. A delay is `in`, a number
and a unit of time; a timestamp is a date, a clock reading and an offset from
UTC. Each reader takes a text that begins with its phrase and gives what the
phrase denotes and the rest of the text. Readers take as much as they can and
never go back, except that a number of two digits which is too large is read as
one of one digit.
-/

import Deferral.Calendar.Iso
import Deferral.Calendar.Shift
import Deferral.Directive.Scanner
import Deferral.Text.Caseless

namespace Deferral

/-- The token of a deletion. -/
def deleteToken : List Char := "@delete".toList

/-- The token of a publication. -/
def scheduleToken : List Char := "@schedule".toList

/-- The units that a delay may name. -/
def unitWords : List (List Char × TimeUnit) := TimeUnit.all.map fun unit => (unit.name.toList, unit)

/-- The words before a timestamp. -/
def momentWords : List (List Char × Unit) :=
  [("on".toList, ()), ("at".toList, ()), ("for".toList, ())]

/-! ## Parts of phrases -/

/-- The text after one blank or more. -/
def dropBlanks? : List Char → Option (List Char)
  | c :: rest => if isBlank c then some (rest.dropWhile isBlank) else none
  | [] => none

/-- One digit or more, and the text after them. -/
def takeDigits? (text : List Char) : Option (List Char × List Char) :=
  if (text.takeWhile Char.isDigit).isEmpty then none
  else some (text.takeWhile Char.isDigit, text.dropWhile Char.isDigit)

/-- The number of `shortest` to `longest` digits, as many as possible, that does
not exceed `maximum`, and the text after it. -/
def takeBounded? (maximum shortest longest : Nat) (text : List Char) : Option (Nat × List Char) :=
  match (⟨text, 0⟩ : Scanner).takeBounded maximum shortest longest with
  | (none, _) => none
  | (some n, after) => some (n, after.rest)

/-- An hour of one digit or two. -/
def takeHour? (text : List Char) : Option (Nat × List Char) := takeBounded? 23 1 2 text

/-- A minute or a second of one digit or two. -/
def takeSixtieth? (text : List Char) : Option (Nat × List Char) := takeBounded? 59 1 2 text

/-! ## Delays -/

/-- A number of units from now. -/
structure Delay where
  /-- How many. -/
  number : Nat
  /-- Of which unit. -/
  unit : TimeUnit
deriving DecidableEq

/-- The text without an `s` at its beginning. -/
def dropPlural (text : List Char) : List Char := (dropWord? ['s'] text).getD text

/-- The phrase of a token and a delay. -/
def readDelay? (token text : List Char) : Option (Delay × List Char) := do
  let rest ← dropWord? token text
  let rest ← dropBlanks? rest
  let rest ← dropWord? "in".toList rest
  let rest ← dropBlanks? rest
  let (digits, rest) ← takeDigits? rest
  let rest ← dropBlanks? rest
  let (unit, rest) ← dropOneOf? unitWords rest
  if digits.length ≤ maxDigits then some (⟨valueOfAscii digits, unit⟩, dropPlural rest) else none

/-! ## Timestamps -/

/-- The seconds and microseconds of a clock reading. Where no second follows the
colon, there are none, and the colon stays. -/
def readSeconds (text : List Char) : Nat × Nat × List Char :=
  match (dropWord? [':'] text).bind takeSixtieth? with
  | none => (0, 0, text)
  | some (second, '.' :: rest) =>
    (second, fractionMicros (rest.takeWhile Char.isDigit), rest.dropWhile Char.isDigit)
  | some (second, rest) => (second, 0, rest)

/-- The hours and minutes of an offset, in minutes. -/
def readOffsetSize? (text : List Char) : Option (Nat × List Char) := do
  let (hours, rest) ← takeHour? text
  let (minutes, rest) ← takeSixtieth? ((dropWord? [':'] rest).getD rest)
  some (hours * 60 + minutes, rest)

/-- The minutes by which a clock is ahead of UTC. -/
def readZone? (text : List Char) : Option (Int × List Char) :=
  match dropWord? ['z'] text with
  | some rest => some (0, rest)
  | none =>
    match text with
    | '+' :: rest => (readOffsetSize? rest).map fun size => ((size.1 : Int), size.2)
    | '-' :: rest => (readOffsetSize? rest).map fun size => (-(size.1 : Int), size.2)
    | _ => none

/-- A timestamp: the instant that it denotes, if the calendar has it. -/
def readMoment? (text : List Char) : Option (Instant × List Char) := do
  let (year, rest) ← takeFixed? 4 text
  let rest ← dropWord? ['-'] rest
  let (month, rest) ← takeFixed? 2 rest
  let rest ← dropWord? ['-'] rest
  let (dayOfMonth, rest) ← takeFixed? 2 rest
  let rest ← dropWord? ['t'] rest
  let (hour, rest) ← takeHour? rest
  let rest ← dropWord? [':'] rest
  let (minute, rest) ← takeSixtieth? rest
  let (second, microsecond, rest) := readSeconds rest
  let (offset, rest) ← readZone? rest
  let wall ← Instant.ofFields? year month dayOfMonth hour minute second microsecond
  let i ← wall.shift? (-(offset * microsPerMinute))
  some (i, rest)

/-- A timestamp as it stands in a text, and its instant. -/
structure Moment where
  /-- The written form. -/
  timestamp : List Char
  /-- What it denotes. -/
  instant : Instant
deriving DecidableEq

/-- The phrase of a publication at a timestamp. -/
def readPublication? (text : List Char) : Option (Moment × List Char) := do
  let rest ← dropWord? scheduleToken text
  let rest ← dropBlanks? rest
  let (_, rest) ← dropOneOf? momentWords rest
  let timestamp ← dropBlanks? rest
  let (instant, rest) ← readMoment? timestamp
  some (⟨timestamp.take (timestamp.length - rest.length), instant⟩, rest)

/-- The instant of a timestamp that stands alone, between blanks. -/
def parseTimestamp? (text : List Char) : Option Instant :=
  match readMoment? (stripBlanks text) with
  | some (instant, []) => some instant
  | _ => none

end Deferral
