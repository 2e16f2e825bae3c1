/-
# Deferral.Calendar.Iso -- timestamps as text

Instants and clock readings are written in the extended ISO 8601 form, with a
fraction of six digits where there is one, and the offset to the second or the
microsecond where it is that fine. Reading takes the same form and its
relatives: the basic form without separators, ISO weeks, any character between
date and time, a clock that stops at the hour or the minute, fractions of any
length, and `Z`.
-/

import Deferral.Calendar.DateTime
import Deferral.Number.Numeral

namespace Deferral

/-! ## Writing -/

/-- A date, as year, month and day. -/
def Date.iso (d : Date) : List Char :=
  decimalFixed 4 d.year ++ '-' :: decimalFixed 2 d.month ++ '-' :: decimalFixed 2 d.dayOfMonth

/-- Hours, minutes and seconds. -/
def isoClock (hour minute second : Nat) : List Char :=
  decimalFixed 2 hour ++ ':' :: decimalFixed 2 minute ++ ':' :: decimalFixed 2 second

/-- A fraction of a second in microseconds, left out if it is zero. -/
def isoFraction (microsecond : Nat) : List Char :=
  if microsecond = 0 then [] else '.' :: decimalFixed 6 microsecond

/-- The sign, hours and minutes of an offset, and its seconds if it has any. -/
def Offset.iso (o : Offset) : List Char :=
  let size := o.micros.natAbs
  let seconds := size / microsPerSecond
  let fraction := size % microsPerSecond
  (if o.micros < 0 then '-' else '+') :: decimalFixed 2 (seconds / 3600) ++
    ':' :: decimalFixed 2 (seconds / 60 % 60) ++
    (if seconds % 60 = 0 ∧ fraction = 0 then []
      else ':' :: decimalFixed 2 (seconds % 60) ++ isoFraction fraction)

/-- A clock reading with a character between date and time. -/
def DateTime.isoWith (separator : Char) (t : DateTime) : List Char :=
  t.wall.date.iso ++ separator :: isoClock t.wall.hour t.wall.minute t.wall.second ++
    isoFraction t.wall.microsecond ++ (t.offset.map Offset.iso).getD []

/-- A clock reading. -/
def DateTime.iso (t : DateTime) : List Char := t.isoWith 'T'

/-- An instant in UTC, cut to milliseconds. -/
def Instant.isoMillis (i : Instant) : List Char :=
  i.date.iso ++ 'T' :: isoClock i.hour i.minute i.second ++
    '.' :: decimalFixed 3 (i.microsecond / 1000) ++ ['Z']

/-! ## Reading a date -/

/-- A number of exactly `width` ASCII digits, and the text after it. -/
def takeFixed? (width : Nat) (text : List Char) : Option (Nat × List Char) :=
  if (text.take width).length = width ∧ (text.take width).all Char.isDigit then
    some (valueOfAscii (text.take width), text.drop width)
  else none

/-- The text after a hyphen. -/
def dropHyphen? : List Char → Option (List Char)
  | '-' :: rest => some rest
  | _ => none

/-- The text after a hyphen where one is due. -/
def dropHyphenIf? (due : Bool) (text : List Char) : Option (List Char) :=
  if due then dropHyphen? text else some text

/-- The day of the Monday on which the ISO weeks of a year begin. -/
def weekYearStart (year : Nat) : Nat :=
  let first := daysBeforeYear year
  let weekday := first % 7
  if weekday ≤ 3 then first - weekday else first - weekday + 7

/-- The number of ISO weeks of a year. -/
def weekCount (year : Nat) : Nat := (weekYearStart (year + 1) - weekYearStart year) / 7

/-- The date of a weekday, Monday being 1, in an ISO week. -/
def Date.ofWeek? (year week weekday : Nat) : Option Date :=
  let day := weekYearStart year + (week - 1) * 7 + (weekday - 1)
  if h : day < Date.dayCount then
    if 1 ≤ year ∧ 1 ≤ week ∧ week ≤ weekCount year ∧ 1 ≤ weekday ∧ weekday ≤ 7 then
      some (Date.ofDay day h)
    else none
  else none

/-- The date of an ISO week and, unless it is Monday, its weekday. -/
def readIsoWeek? (hyphens : Bool) (year : Nat) (text : List Char) : Option Date := do
  let (week, rest) ← takeFixed? 2 text
  if rest.isEmpty then
    Date.ofWeek? year week 1
  else
    let rest ← dropHyphenIf? hyphens rest
    let (weekday, _) ← takeFixed? 1 rest
    Date.ofWeek? year week weekday

/-- The date of a month and a day. -/
def readIsoMonthDay? (hyphens : Bool) (year : Nat) (text : List Char) : Option Date := do
  let (month, rest) ← takeFixed? 2 text
  let rest ← dropHyphenIf? hyphens rest
  let (dayOfMonth, rest) ← takeFixed? 2 rest
  if rest.isEmpty then Date.ofFields? year month dayOfMonth else none

/-- The date that a text denotes. -/
def readIsoDate? (text : List Char) : Option Date := do
  let (year, rest) ← takeFixed? 4 text
  match rest with
  | '-' :: 'W' :: rest => readIsoWeek? true year rest
  | '-' :: rest => readIsoMonthDay? true year rest
  | 'W' :: rest => readIsoWeek? false year rest
  | rest => readIsoMonthDay? false year rest

/-- How many characters at the beginning of a timestamp make up its date. Where
a weekday and the digits of a time meet, an even number of digits belongs to
the time. -/
def dateWidth? (text : List Char) : Option Nat :=
  if text.length < 7 then none
  else if text.length = 7 then some 7
  else match text.drop 4 with
    | '-' :: 'W' :: _ =>
      match text.drop 8 with
      | ['-'] => none
      | '-' :: _ :: c :: _ => if c.isDigit then some 8 else some 10
      | ['-', _] => some 10
      | _ => some 8
    | '-' :: _ => some 10
    | 'W' :: _ =>
      -- The digits are those of an optional weekday and of a time in pairs.
      let width := 7 + ((text.drop 7).takeWhile Char.isDigit).length
      if width < 9 then some width else if width % 2 = 0 then some 7 else some 8
    | _ => some 8

/-! ## Reading a clock -/

/-- What a text shows of a clock, or of the size of an offset. -/
structure ClockReading where
  /-- The hours, minutes and seconds that are shown. -/
  fields : List Nat
  /-- The fraction of the second. -/
  microsecond : Nat
  /-- Something follows that belongs to no field. -/
  leftover : Bool

namespace ClockReading

/-- The hours. -/
def hour (r : ClockReading) : Nat := (r.fields[0]?).getD 0

/-- The minutes. -/
def minute (r : ClockReading) : Nat := (r.fields[1]?).getD 0

/-- The seconds. -/
def second (r : ClockReading) : Nat := (r.fields[2]?).getD 0

end ClockReading

/-- A character that counts as something left over. -/
def isLeftover (c : Char) : Bool := c != '\x00'

/-- A reading without a fraction that one character follows, which has to be in ASCII. -/
def readStray? (fields : List Nat) (c : Char) : Option ClockReading :=
  if c.toNat < 0x80 then some { fields, microsecond := 0, leftover := isLeftover c } else none

/-- The microseconds that the digits of a fraction denote; those after the sixth are
ignored. -/
def fractionMicros (digits : List Char) : Nat :=
  valueOfAscii (digits.take 6) * tenTo (6 - (digits.take 6).length)

/-- A reading whose fraction is the text: digits, of which six are kept. -/
def readFraction? (fields : List Nat) (text : List Char) : Option ClockReading :=
  let shown := text.take 6
  if shown.all Char.isDigit then
    some {
      fields
      microsecond := fractionMicros shown
      leftover := ((text.drop 6).dropWhile Char.isDigit).head?.any isLeftover }
  else none

/-- A reading of up to `more + 1` further fields of two digits each, and a
fraction. The first separator says whether colons part the fields. -/
def readClockFrom? (more : Nat) (colons : Bool) (fields : List Nat) (text : List Char) :
    Option ClockReading := do
  let (value, rest) ← takeFixed? 2 text
  let shown := fields ++ [value]
  match rest with
  | [] => return { fields := shown, microsecond := 0, leftover := false }
  | [c] => readStray? shown c
  | c :: next =>
    -- What follows the hour decides for all fields.
    let colons := if fields.isEmpty then c == ':' else colons
    if colons && c == ':' then
      match more with
      | 0 => readFraction? shown next
      | more + 1 => readClockFrom? more colons shown next
    else if c == '.' || c == ',' then readFraction? shown next
    else if colons then none
    else match more with
      | 0 => readFraction? shown rest
      | more + 1 => readClockFrom? more colons shown rest

/-- A reading of hours, minutes, seconds and a fraction. -/
def readClock? (text : List Char) : Option ClockReading := readClockFrom? 2 false [] text

/-- A character that begins the offset of a timestamp. -/
def beginsOffset (c : Char) : Bool := c == '+' || c == '-' || c == 'Z'

/-- The offset that a text denotes. Less than a second is no offset, and a null character
ends a text that begins with `Z`. -/
def readOffset? : List Char → Option Offset
  | 'Z' :: rest => if rest.head?.any isLeftover then none else some .utc
  | sign :: text => do
    let r ← readClock? text
    if r.leftover then none
    let seconds := r.hour * 3600 + r.minute * 60 + r.second
    -- A fraction alone does not make an offset.
    if seconds = 0 then return .utc
    Offset.ofMicros? (withSign (sign == '-') (seconds * microsPerSecond + r.microsecond))
  | [] => none

/-! ## Reading a timestamp -/

/-- The clock reading at a date that a text of a time denotes. -/
def readIsoTime? (d : Date) (text : List Char) : Option DateTime := do
  let clock := text.takeWhile (!beginsOffset ·)
  let zone := text.dropWhile (!beginsOffset ·)
  let r ← readClock? clock
  let offset ← if zone.isEmpty then (if r.leftover then none else some none)
    else (readOffset? zone).map some
  let wall ← Instant.ofFields? d.year d.month d.dayOfMonth r.hour r.minute r.second r.microsecond
  return ⟨wall, offset⟩

/-- The clock reading that a timestamp denotes. A date alone is its midnight. -/
def DateTime.readIso? (text : List Char) : Option DateTime := do
  let width ← dateWidth? text
  let d ← readIsoDate? (text.take width)
  match text.drop width with
  | [] => return ⟨Instant.midnight d, none⟩
  | _ :: time => readIsoTime? d time

end Deferral
