/-
# Deferral.Calendar.Instant -- instants to the microsecond

An instant is a microsecond of the calendar, counted from the beginning of year
1; the last one ends year 9999. The same count serves for the reading of a wall
clock. `Instant.date` and the fields of the clock are views of the count, and
`Instant.ofDate` goes back.
-/

import Deferral.Calendar.Date

namespace Deferral

/-- The microseconds of a second. -/
def microsPerSecond : Nat := 1000000

/-- The microseconds of a minute. -/
def microsPerMinute : Nat := 60 * microsPerSecond

/-- The microseconds of an hour. -/
def microsPerHour : Nat := 60 * microsPerMinute

/-- The microseconds of a day. -/
def microsPerDay : Nat := 24 * microsPerHour

/-- The microseconds from the beginning of the calendar to that of 1970. -/
def epochMicros : Nat := 719162 * microsPerDay

/-- An instant of the calendar. -/
structure Instant where
  /-- The microseconds since the beginning of year 1. -/
  micros : Nat
  micros_lt : micros < Date.dayCount * microsPerDay
deriving DecidableEq

namespace Instant

/-- The first instant of the calendar. -/
def first : Instant := ⟨0, by decide⟩

/-- The instant at a count of microseconds, if the calendar has it. -/
def ofMicros? (micros : Int) : Option Instant :=
  if h : 0 ≤ micros ∧ micros.toNat < Date.dayCount * microsPerDay then
    some ⟨micros.toNat, h.2⟩
  else none

/-- The instant some microseconds later, or earlier if they are negative. -/
def shift? (i : Instant) (micros : Int) : Option Instant := ofMicros? (i.micros + micros)

instance : LT Instant := ⟨fun a b => a.micros < b.micros⟩

instance (a b : Instant) : Decidable (a < b) := inferInstanceAs (Decidable (a.micros < b.micros))

/-! ## Date and clock -/

/-- The day of an instant. -/
def day (i : Instant) : Nat := i.micros / microsPerDay

theorem day_lt (i : Instant) : i.day < Date.dayCount :=
  Nat.div_lt_of_lt_mul (Nat.mul_comm .. ▸ i.micros_lt)

/-- The date of an instant. -/
def date (i : Instant) : Date := Date.ofDay i.day i.day_lt

/-- The microseconds since midnight. -/
def sinceMidnight (i : Instant) : Nat := i.micros % microsPerDay

/-- The hour, from 0 to 23. -/
def hour (i : Instant) : Nat := i.sinceMidnight / microsPerHour

/-- The minute, from 0 to 59. -/
def minute (i : Instant) : Nat := i.sinceMidnight / microsPerMinute % 60

/-- The second, from 0 to 59. -/
def second (i : Instant) : Nat := i.sinceMidnight / microsPerSecond % 60

/-- The microseconds of the second. -/
def microsecond (i : Instant) : Nat := i.sinceMidnight % microsPerSecond

/-- The instant of a date at some microseconds since midnight. -/
def ofDate (d : Date) (sinceMidnight : Nat) (h : sinceMidnight < microsPerDay) : Instant where
  micros := d.day * microsPerDay + sinceMidnight
  micros_lt := by
    have hd := Nat.mul_le_mul_right microsPerDay (Nat.succ_le_of_lt d.day_lt)
    rw [Nat.succ_mul] at hd
    omega

/-- The instant with the given fields, if the calendar and the clock have it. -/
def ofFields? (year month dayOfMonth hour minute second microsecond : Nat) : Option Instant :=
  (Date.ofFields? year month dayOfMonth).bind fun d =>
    if h : hour ≤ 23 ∧ minute ≤ 59 ∧ second ≤ 59 ∧ microsecond < microsPerSecond then
      some (ofDate d
        (hour * microsPerHour + minute * microsPerMinute + second * microsPerSecond + microsecond)
        (by simp only [microsPerDay, microsPerHour, microsPerMinute, microsPerSecond] at *; omega))
    else none

/-- The beginning of a date. -/
def midnight (d : Date) : Instant := ofDate d 0 (by decide)

/-- The instant without the microseconds after the last whole millisecond. -/
def truncateToMillis (i : Instant) : Instant where
  micros := i.micros / 1000 * 1000
  micros_lt := Nat.lt_of_le_of_lt (Nat.div_mul_le_self ..) i.micros_lt

end Instant

end Deferral
