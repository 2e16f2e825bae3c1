/-
# Deferral.Calendar.Typed -- dates and times as people type them

A date, or a date and a time with an offset or without: hours and minutes have two
digits, seconds and their fraction may be left out. A number in place of all of this
counts the seconds since 1970, or the milliseconds if it is too large for seconds.
-/

import Deferral.Calendar.Iso
import Deferral.Number.Binary64

namespace Deferral

/-! ## Dates and times -/

/-- A character that parts a date from a time. -/
def isTimeMark (c : Char) : Bool := c == 'T' || c == 't' || c == ' ' || c == '_'

/-- A date, and the text after it. -/
def takeTypedDate? (text : List Char) : Option (Date × List Char) := do
  let (year, rest) ← takeFixed? 4 text
  let rest ← dropHyphen? rest
  let (month, rest) ← takeFixed? 2 rest
  let rest ← dropHyphen? rest
  let (dayOfMonth, rest) ← takeFixed? 2 rest
  let d ← Date.ofFields? year month dayOfMonth
  some (d, rest)

/-- The fraction of a second after a point or a comma, in microseconds, and the text
after it. There may be none. -/
def takeTypedFraction? : List Char → Option (Nat × List Char)
  | c :: rest =>
    if c == '.' || c == ',' then
      let digits := rest.takeWhile Char.isDigit
      if digits.isEmpty then none
      else some (fractionMicros digits, rest.dropWhile Char.isDigit)
    else some (0, c :: rest)
  | [] => some (0, [])

/-- Seconds after a colon and their fraction in microseconds, and the text after them.
There may be none. -/
def takeTypedSeconds? : List Char → Option (Nat × Nat × List Char)
  | ':' :: rest => do
    let (second, rest) ← takeFixed? 2 rest
    let (microsecond, rest) ← takeTypedFraction? rest
    some (second, microsecond, rest)
  | rest => some (0, 0, rest)

/-- The text after a colon, which may be missing. -/
def dropTypedColon : List Char → List Char
  | ':' :: rest => rest
  | rest => rest

/-- Hours and minutes, which are all of a text, as an offset. -/
def readTypedSize? (behind : Bool) (text : List Char) : Option Offset := do
  let (hours, rest) ← takeFixed? 2 text
  let (minutes, rest) ← takeFixed? 2 (dropTypedColon rest)
  if rest.isEmpty && minutes ≤ 59 then
    Offset.ofMicros? (withSign behind ((hours * 60 + minutes) * microsPerMinute))
  else none

/-- The offset that is all of a text. There may be none. A minus sign may be typed in
two ways. -/
def readTypedOffset? : List Char → Option (Option Offset)
  | [] => some none
  | ['Z'] | ['z'] => some (some .utc)
  | '+' :: rest => (readTypedSize? false rest).map some
  | '-' :: rest | '\u2212' :: rest => (readTypedSize? true rest).map some
  | _ => none

/-- The clock reading at a date that a time denotes. -/
def readTypedTime? (d : Date) (text : List Char) : Option DateTime := do
  let (hour, rest) ← takeFixed? 2 text
  let rest ← match rest with
    | ':' :: rest => some rest
    | _ => none
  let (minute, rest) ← takeFixed? 2 rest
  let (second, microsecond, rest) ← takeTypedSeconds? rest
  let offset ← readTypedOffset? rest
  let wall ← Instant.ofFields? d.year d.month d.dayOfMonth hour minute second microsecond
  some ⟨wall, offset⟩

/-! ## Numbers -/

/-- The most seconds that a number counts; a larger one counts milliseconds. -/
def maxTypedSeconds : Nat := 20000000000

/-- The first and the last second, since 1970, that a number can denote: those of the
years from 1600 to 9999. -/
def typedRange : Int × Int := (-11676096000, 253402300799)

/-- The instant some seconds and microseconds after 1970, as a clock that shows UTC reads
it. -/
def typedInstant? (seconds micros : Int) : Option DateTime :=
  if typedRange.1 ≤ seconds && seconds ≤ typedRange.2 then
    (Instant.ofMicros? (epochMicros + seconds * microsPerSecond + micros)).map DateTime.utc
  else none

/-- The instant of a whole number. -/
def wholeInstant? (n : Int) : Option DateTime :=
  if n.natAbs ≤ maxTypedSeconds then typedInstant? n 0
  else typedInstant? (n / 1000) (n % 1000 * 1000)

/-- The instant of a double that counts seconds. The fraction of the second is rounded to
microseconds, a half to the larger number. -/
def secondsInstant? (x : Binary64) : Option DateTime :=
  let seconds := x.signedNumerator / x.denominator
  let rest := (x.signedNumerator % x.denominator).toNat
  let part := Binary64.ofRatio false (rest * microsPerSecond) x.denominator
  let micros := (2 * part.numerator + part.denominator) / (2 * part.denominator)
  typedInstant? seconds micros

/-- The instant of a number with a point. -/
def pointInstant? (negative : Bool) (digits : List Char) (places : Nat) : Option DateTime :=
  let x := Binary64.ofDecimal negative (valueOfAscii digits) places
  if x.numerator ≤ maxTypedSeconds * x.denominator then secondsInstant? x
  else secondsInstant? (Binary64.ofRatio negative x.numerator (1000 * x.denominator))

/-- The instant that a number denotes. -/
def readTypedNumber? (text : List Char) : Option DateTime :=
  let (negative, body) := splitSign text
  let whole := body.takeWhile Char.isDigit
  let rest := body.dropWhile Char.isDigit
  if whole.isEmpty then none
  else match rest with
    | [] => wholeInstant? (withSign negative (valueOfAscii whole))
    | '.' :: fraction =>
      if fraction.all Char.isDigit then
        pointInstant? negative (whole ++ fraction) fraction.length
      else none
    | _ => none

/-! ## All forms -/

/-- The clock reading that a typed text denotes. A date alone is its midnight. -/
def DateTime.readTyped? (text : List Char) : Option DateTime :=
  match takeTypedDate? text with
  | some (d, []) => some ⟨Instant.midnight d, none⟩
  | some (d, c :: time) => if isTimeMark c then readTypedTime? d time else none
  | none => readTypedNumber? text

end Deferral
