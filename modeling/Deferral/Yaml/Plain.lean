/-
# Deferral.Yaml.Plain -- what a plain scalar stands for

A scalar without quotes stands for null, a truth value, an integer, a double, a
date or a timestamp if it has the form of one, and for itself otherwise. The
forms are those of YAML 1.1: integers in four bases and in base sixty, doubles
with a point, and timestamps with a space or a `T`.
-/

import Deferral.Text.Hex
import Deferral.Text.Split
import Deferral.Value

namespace Deferral.Yaml

/-! ## Words -/

/-- The words for null. -/
def nullWords : List String := ["", "~", "null", "Null", "NULL"]

/-- The words for the truth values. -/
def boolWords : List (String × Bool) :=
  [("yes", true), ("Yes", true), ("YES", true), ("no", false), ("No", false), ("NO", false),
   ("true", true), ("True", true), ("TRUE", true), ("false", false), ("False", false),
   ("FALSE", false), ("on", true), ("On", true), ("ON", true), ("off", false), ("Off", false),
   ("OFF", false)]

/-! ## Digits -/

/-- A digit or an underscore. -/
def isSpacedDigit (c : Char) : Bool := c.isDigit || c == '_'

/-- A text without its underscores. -/
def dropUnderscores (text : List Char) : List Char := text.filter (· != '_')

/-- A text is not empty and of one class of characters. -/
def isRunOf (p : Char → Bool) (text : List Char) : Bool := !text.isEmpty && text.all p

/-- A text begins with a digit and goes on with digits and underscores. -/
def isSpacedNumeral : List Char → Bool
  | c :: rest => c.isDigit && rest.all isSpacedDigit
  | [] => false

/-- A digit, or two of which the first is at most 5. -/
def isSixtieth : List Char → Bool
  | [c] => c.isDigit
  | [c, d] => c.isDigit && c ≤ '5' && d.isDigit
  | _ => false

/-- The parts of a number in base sixty, if the text has the form of one: a numeral, and
at least one part after a colon. -/
def sixtieths? (text : List Char) : Option (List (List Char)) :=
  match splitAtChar ':' text with
  | first :: second :: rest =>
    if isSpacedNumeral first && (second :: rest).all isSixtieth then
      some (first :: second :: rest)
    else none
  | _ => none

/-! ## Integers -/

/-- The integer of digits in a base that is a power of two. There have to be some. -/
def bitNumeral (negative : Bool) (base : Nat) (digits : List Char) : Except Failure Value :=
  if digits.isEmpty then .error .malformedNumber
  else .ok (.int (withSign negative (valueOfDigits base (digits.map hexValue))))

/-- The number of decimal digits, which may not be too many. -/
def decimalNumeral (digits : List Char) : Except Failure Nat :=
  if digits.length ≤ maxDigits then .ok (valueOfAscii digits) else .error .malformedNumber

/-- The number that parts in base sixty denote. -/
def sixtyNumeral (parts : List (List Char)) : Except Failure Nat := do
  let digits ← parts.mapM decimalNumeral
  return valueOfDigits 60 digits

/-- The integer of a text without sign, if it has the form of one. -/
def unsignedInteger? (negative : Bool) : List Char → Option (Except Failure Value)
  | '0' :: 'b' :: digits =>
    if isRunOf (fun c => c == '0' || c == '1' || c == '_') digits then
      some (bitNumeral negative 2 (dropUnderscores digits))
    else none
  | '0' :: 'x' :: digits =>
    if isRunOf (fun c => isHexDigit c || c == '_') digits then
      some (bitNumeral negative 16 (dropUnderscores digits))
    else none
  | '0' :: digits =>
    if digits.all fun c => ('0' ≤ c && c ≤ '7') || c == '_' then
      some (bitNumeral negative 8 ('0' :: dropUnderscores digits))
    else none
  | digits =>
    if isSpacedNumeral digits then
      some ((decimalNumeral (dropUnderscores digits)).map fun n => .int (withSign negative n))
    else (sixtieths? digits).map fun parts =>
      (sixtyNumeral (parts.map dropUnderscores)).map fun n => .int (withSign negative n)

/-- The integer of a text, if it has the form of one. -/
def integer? (text : List Char) : Option (Except Failure Value) :=
  unsignedInteger? (splitSign text).1 (splitSign text).2

/-! ## Doubles -/

/-- The exponent at the end of a double: none, or one with a sign. -/
def exponent? : List Char → Option Int
  | [] => some 0
  | e :: sign :: digits =>
    if (e == 'e' || e == 'E') && (sign == '+' || sign == '-') && isRunOf Char.isDigit digits then
      some (withSign (sign == '-') (valueOfAscii digits))
    else none
  | _ => none

/-- The double of a decimal numeral. Exponents that lead out of the range of doubles
are not expanded. -/
def doubleOf (negative : Bool) (whole fraction : List Char) (exponent : Int) : Binary64 :=
  let digits := valueOfAscii (whole ++ fraction)
  let scale := exponent - fraction.length
  if digits = 0 then .zero negative
  else if 400 < scale then .infinity negative
  else if scale + (whole.length + fraction.length) < -400 then .zero negative
  else .ofDecimal negative digits (-scale)

/-- The double of digits around a point, and an exponent. -/
def pointed? (negative : Bool) (text : List Char) : Option Binary64 :=
  let whole := text.takeWhile isSpacedDigit
  match text.dropWhile isSpacedDigit with
  | '.' :: rest =>
    (exponent? (rest.dropWhile isSpacedDigit)).map fun e =>
      doubleOf negative (dropUnderscores whole) (dropUnderscores (rest.takeWhile isSpacedDigit)) e
  | _ => none

/-- The sum of parts, each sixty times as much as the one after it. -/
def sixtySum (parts : List (List Char)) (fraction : List Char) : Binary64 :=
  -- Only the last part has a fraction, and the sum begins with it.
  let sizes := match parts.reverse with
    | [] => []
    | last :: earlier =>
      doubleOf false last fraction 0 :: earlier.map fun part => doubleOf false part [] 0
  (sizes.foldl (fun (sum, base) size =>
    (Binary64.addSizes sum (Binary64.mulSizes size (Binary64.ofRatio false base 1)), base * 60))
    (Binary64.zero false, 1)).1

/-- The double of parts in base sixty and a fraction. -/
def sixtyDouble? (negative : Bool) (text : List Char) : Option Binary64 :=
  match text.dropWhile (· != '.') with
  | '.' :: fraction =>
    if fraction.all isSpacedDigit then
      (sixtieths? (text.takeWhile (· != '.'))).map fun parts =>
        let sum := sixtySum (parts.map dropUnderscores) (dropUnderscores fraction)
        { sum with negative }
    else none
  | _ => none

/-- The double of a text, if it has the form of one. -/
def double? (text : List Char) : Option Binary64 :=
  let (negative, body) := splitSign text
  if [".inf", ".Inf", ".INF"].contains (String.ofList body) then some (.infinity negative)
  else if [".nan", ".NaN", ".NAN"].contains (String.ofList text) then some .nan
  else match text with
    | '.' :: rest =>
      if isSpacedNumeral (rest.takeWhile isSpacedDigit) then pointed? false text else none
    | _ =>
      if isSpacedNumeral (body.takeWhile isSpacedDigit) then
        (pointed? negative body).or (sixtyDouble? negative body)
      else none

/-! ## Dates and timestamps -/

/-- A number of one digit or two, and the text after it. -/
def takeShort? : List Char → Option (Nat × List Char)
  | c :: d :: rest =>
    if c.isDigit then
      if d.isDigit then some (valueOfAscii [c, d], rest) else some (valueOfAscii [c], d :: rest)
    else none
  | [c] => if c.isDigit then some (valueOfAscii [c], []) else none
  | [] => none

/-- The text after a character. -/
def dropChar? (expected : Char) : List Char → Option (List Char)
  | c :: rest => if c = expected then some rest else none
  | [] => none

/-- A space or a tab. -/
def isSpaceOrTab (c : Char) : Bool := c == ' ' || c == '\t'

/-- The text after what separates a date from a time. -/
def dropTimeMark? : List Char → Option (List Char)
  | c :: rest =>
    if c == 'T' || c == 't' then some rest
    else if isSpaceOrTab c then some (rest.dropWhile isSpaceOrTab)
    else none
  | [] => none

/-- The offset at the end of a timestamp, in minutes; there may be none. -/
def zone? (text : List Char) : Option (Option Int) :=
  match text.dropWhile isSpaceOrTab with
  | [] => if text.isEmpty then some none else none
  | ['Z'] => some (some 0)
  | sign :: rest =>
    if sign == '+' || sign == '-' then do
      let (hours, rest) ← takeShort? rest
      let minutes ← match rest with
        | [] => some 0
        | rest => do
          let rest ← dropChar? ':' rest
          let (minutes, rest) ← takeFixed? 2 rest
          if rest.isEmpty then some minutes else none
      return some (withSign (sign == '-') (hours * 60 + minutes))
    else none

/-- The parts of a timestamp. -/
structure Stamp where
  year : Nat
  month : Nat
  dayOfMonth : Nat
  hour : Nat
  minute : Nat
  second : Nat
  microsecond : Nat
  /-- The minutes ahead of UTC. -/
  zone : Option Int

/-- The parts of a text that has the form of a timestamp. -/
def stamp? (text : List Char) : Option Stamp := do
  let (year, rest) ← takeFixed? 4 text
  let rest ← dropChar? '-' rest
  let (month, rest) ← takeShort? rest
  let rest ← dropChar? '-' rest
  let (dayOfMonth, rest) ← takeShort? rest
  let rest ← dropTimeMark? rest
  let (hour, rest) ← takeShort? rest
  let rest ← dropChar? ':' rest
  let (minute, rest) ← takeFixed? 2 rest
  let rest ← dropChar? ':' rest
  let (second, rest) ← takeFixed? 2 rest
  let fraction := match rest with
    | '.' :: rest => rest.takeWhile Char.isDigit
    | _ => []
  let rest := match rest with
    | '.' :: rest => rest.dropWhile Char.isDigit
    | rest => rest
  let zone ← zone? rest
  return {
    year, month, dayOfMonth, hour, minute, second
    microsecond := fractionMicros fraction
    zone }

/-- The clock reading of a timestamp, if the calendar has it. -/
def Stamp.toDateTime? (s : Stamp) : Option DateTime := do
  let wall ← Instant.ofFields? s.year s.month s.dayOfMonth s.hour s.minute s.second s.microsecond
  match s.zone with
  | none => return ⟨wall, none⟩
  | some minutes =>
    let offset ← Offset.ofMicros? (minutes * microsPerMinute)
    return ⟨wall, some offset⟩

/-- The year, month and day of a text that has the form of a date. -/
def plainDate? (text : List Char) : Option (Nat × Nat × Nat) := do
  let (year, rest) ← takeFixed? 4 text
  let rest ← dropChar? '-' rest
  let (month, rest) ← takeFixed? 2 rest
  let rest ← dropChar? '-' rest
  let (dayOfMonth, rest) ← takeFixed? 2 rest
  if rest.isEmpty then some (year, month, dayOfMonth) else none

/-- A value that the calendar has to have. -/
def onCalendar {α : Type} (make : α → Value) : Option α → Except Failure Value
  | some found => .ok (make found)
  | none => .error .malformedNumber

/-- The date or timestamp of a text, if it has the form of one. -/
def timestamp? (text : List Char) : Option (Except Failure Value) :=
  match plainDate? text with
  | some (year, month, dayOfMonth) =>
    some (onCalendar .date (Date.ofFields? year month dayOfMonth))
  | none => (stamp? text).map fun s => onCalendar .dateTime s.toDateTime?

/-! ## All forms -/

/-- What a plain scalar stands for unless it is a text. The signs of merging and of a
default value stand for nothing. -/
def special? (text : List Char) : Option (Except Failure Value) :=
  if nullWords.contains (String.ofList text) then some (.ok .null)
  else match boolWords.lookup (String.ofList text) with
    | some b => some (.ok (.bool b))
    | none =>
      match double? text with
      | some x => some (.ok (.float x))
      | none =>
        match integer? text with
        | some n => some n
        | none =>
          if text == ['<', '<'] || text == ['='] then some (.error .malformedDocument)
          else timestamp? text

/-- The value of a plain scalar. -/
def plainValue (text : List Char) : Except Failure Value :=
  (special? text).getD (.ok (.text (String.ofList text)))

/-- A text would stand for something else if it were a plain scalar. -/
def isSpecial (text : List Char) : Bool := (special? text).isSome

end Deferral.Yaml
