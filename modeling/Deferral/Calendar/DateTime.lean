/-
# Deferral.Calendar.DateTime -- clock readings with and without an offset

A date and time is the reading of a wall clock, together with the distance of
that clock from UTC where this is known. A reading without an offset is taken
as UTC wherever an instant is needed.
-/

import Deferral.Calendar.Instant
import Deferral.Failure

namespace Deferral

/-- The distance of a wall clock from UTC; it is shorter than a day. -/
structure Offset where
  /-- The microseconds by which the clock is ahead of UTC. -/
  micros : Int
  lower : -(microsPerDay : Int) < micros
  upper : micros < microsPerDay
deriving DecidableEq

namespace Offset

/-- A clock that shows UTC. -/
def utc : Offset := ⟨0, by decide, by decide⟩

/-- The offset of some microseconds, if it is shorter than a day. -/
def ofMicros? (micros : Int) : Option Offset :=
  if h : -(microsPerDay : Int) < micros ∧ micros < microsPerDay then some ⟨micros, h.1, h.2⟩
  else none

end Offset

/-- The reading of a wall clock. -/
structure DateTime where
  /-- What the clock shows. -/
  wall : Instant
  /-- The offset of the clock from UTC, if it is known. -/
  offset : Option Offset
deriving DecidableEq

namespace DateTime

/-- An instant as a clock that shows UTC reads it. -/
def utc (i : Instant) : DateTime := ⟨i, some .utc⟩

/-- The microseconds of the instant, which may lie off the calendar. -/
def utcMicros (t : DateTime) : Int :=
  t.wall.micros - (t.offset.map Offset.micros).getD 0

/-- The instant at which the clock shows this reading. -/
def toInstant (t : DateTime) : Except Failure Instant :=
  match t.offset with
  | none => .ok t.wall
  | some offset =>
    match t.wall.shift? (-offset.micros) with
    | some i => .ok i
    | none => .error .offCalendar

/-- Two readings are of the same moment: both of known offset and of one
instant, or both of unknown offset and equal. -/
def sameMoment (a b : DateTime) : Bool :=
  a.offset.isSome == b.offset.isSome && a.utcMicros == b.utcMicros

end DateTime

end Deferral
