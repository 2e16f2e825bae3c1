/-
# Deferral.Calendar.Shift -- moving an instant by units of time

Seconds to weeks are spans of fixed length: a shift by them moves along the
time line. Months and years move in the calendar: the day of the month stays,
or becomes the last day of a month that is too short. `pivot` applies several
shifts at once, the largest unit first.
-/

import Deferral.Calendar.DateTime
import Deferral.Text.Quoted

namespace Deferral

/-! ## Units -/

/-- A unit of time. -/
inductive TimeUnit where
  | second
  | minute
  | hour
  | day
  | week
  | month
  | year
deriving DecidableEq, Repr

/-- How a unit moves an instant. -/
inductive Stride where
  /-- By a fixed number of microseconds. -/
  | span (micros : Nat)
  /-- By a number of months of the calendar. -/
  | months (count : Nat)
deriving DecidableEq

namespace TimeUnit

/-- The units, from the smallest to the largest. -/
def all : List TimeUnit := [second, minute, hour, day, week, month, year]

/-- The name of a unit. -/
def name : TimeUnit → String
  | second => "second"
  | minute => "minute"
  | hour => "hour"
  | day => "day"
  | week => "week"
  | month => "month"
  | year => "year"

/-- The keyword of a shift by a unit. -/
def keyword (u : TimeUnit) : String := u.name ++ "s"

/-- How one unit moves an instant. -/
def stride : TimeUnit → Stride
  | second => .span microsPerSecond
  | minute => .span microsPerMinute
  | hour => .span microsPerHour
  | day => .span microsPerDay
  | week => .span (7 * microsPerDay)
  | month => .months 1
  | year => .months 12

/-- The unit of a name. -/
def ofName? (name : String) : Option TimeUnit := all.find? (·.name == name)

/-- The unit of a keyword. -/
def ofKeyword? (keyword : String) : Option TimeUnit := all.find? (·.keyword == keyword)

end TimeUnit

/-! ## Shifts by one unit -/

namespace Date

/-- The date `count` months later, with the day of the month cut to the length
of the target month. -/
def addMonths (d : Date) (count : Int) : Except Failure Date :=
  -- Months are counted from the first January of year 0.
  let index : Int := 12 * d.year + (d.month - 1 : Nat) + count
  let year := index / 12
  let month := (index % 12).toNat + 1
  match ofFields? year.toNat month (min d.dayOfMonth (daysInMonth year.toNat month)) with
  | some moved => .ok moved
  | none =>
    .error (if -2147483648 ≤ year ∧ year < 2147483648 then .yearOffCalendar else .yearOverflow)

end Date

namespace Instant

theorem sinceMidnight_lt (i : Instant) : i.sinceMidnight < microsPerDay :=
  Nat.mod_lt _ (by decide)

/-- The same time of day some months later. -/
def addMonths (i : Instant) (count : Int) : Except Failure Instant := do
  let moved ← i.date.addMonths count
  return ofDate moved i.sinceMidnight i.sinceMidnight_lt

/-- An instant moved along the time line. -/
def addSpan (i : Instant) (micros : Int) : Except Failure Instant :=
  match i.shift? micros with
  | some moved => .ok moved
  | none => .error .offCalendar

/-- An instant moved by some units, backwards if there are fewer than none. -/
def add (i : Instant) (unit : TimeUnit) (amount : Int) : Except Failure Instant :=
  match unit.stride with
  | .span micros => i.addSpan (micros * amount)
  | .months count => i.addMonths (count * amount)

/-- An instant moved by several units one after the other. -/
def addAll (i : Instant) : List (TimeUnit × Int) → Except Failure Instant
  | [] => .ok i
  | (unit, amount) :: shifts => do
    let moved ← i.add unit amount
    moved.addAll shifts

end Instant

namespace DateTime

/-- The instant of a reading moved by some units, given by name. -/
def addUnits (base : DateTime) (unit : String) (amount : Int) : Except Failure Instant := do
  match TimeUnit.ofName? unit with
  | none => throw (.unknownUnit (String.ofList (quoted unit.toList)))
  | some unit =>
    let i ← base.toInstant
    i.add unit amount

/-! ## Several shifts at once -/

/-- The units of shifts that are given by keyword. -/
def shiftsOfKeywords : List (String × Int) → Except Failure (List (TimeUnit × Int))
  | [] => .ok []
  | (keyword, amount) :: rest =>
    match TimeUnit.ofKeyword? keyword with
    | none => .error (.unknownShift keyword)
    | some unit => (shiftsOfKeywords rest).map ((unit, amount) :: ·)

/-- Shifts ordered from the largest unit to the smallest; shifts by one unit
keep their order. -/
def largestFirst (shifts : List (TimeUnit × Int)) : List (TimeUnit × Int) :=
  TimeUnit.all.reverse.flatMap fun unit => shifts.filter (·.1 == unit)

/-- The keyword of the reading that is moved, which no shift can have. -/
def baseKeyword : String := "base"

/-- The instant of a reading moved by several units, the largest first. -/
def pivot (base : DateTime) (amounts : List (String × Int)) : Except Failure Instant := do
  if amounts.any (·.1 == baseKeyword) then throw .repeatedBase
  let i ← base.toInstant
  let shifts ← shiftsOfKeywords amounts
  i.addAll (largestFirst shifts)

end DateTime

end Deferral
