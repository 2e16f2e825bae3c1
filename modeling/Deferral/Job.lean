/-
# Deferral.Job -- jobs that run once, later

A job names what is to be done with an item and the instant at which to do it. A
queue is told the instant as seconds since 1970, which is a double: the fraction
of seconds is rounded once on the way there, and rounded to microseconds on the
way back.
-/

import Deferral.Calendar.Shift
import Deferral.Value.Text

namespace Deferral

/-! ## Kinds of jobs -/

/-- What a job does. -/
inductive JobKind where
  /-- Redact an item. -/
  | delete
  /-- Publish an item. -/
  | publish
deriving DecidableEq, Repr

namespace JobKind

/-- The name under which a queue knows a kind. -/
def name : JobKind → String
  | delete => "deleteItem"
  | publish => "postItem"

/-- The kind of a name. -/
def ofName? (name : String) : Option JobKind := [delete, publish].find? (·.name == name)

/-- The kind that a value names. -/
def ofValue (value : Value) : Except Failure JobKind :=
  match value with
  | .text name =>
    match ofName? name with
    | some kind => .ok kind
    | none => .error (.unknownJobKind (String.ofList (quoted name.toList)))
  | value => value.literal.bind fun shown => .error (.unknownJobKind (String.ofList shown))

end JobKind

/-! ## Seconds since 1970 -/

/-- Microseconds as seconds, rounded to a double. -/
def secondsOfMicros (micros : Int) : Binary64 :=
  Binary64.ofRatio (micros < 0) micros.natAbs microsPerSecond

/-- Seconds rounded to microseconds: the whole seconds count exactly, and the
fraction, multiplied as a double, is rounded to the nearest integer, the even one
of two. -/
def microsOfSeconds (x : Binary64) : Int :=
  let whole := x.numerator / x.denominator
  let part := Binary64.ofRatio false (x.numerator % x.denominator * microsPerSecond) x.denominator
  withSign x.negative (whole * microsPerSecond + roundHalfEven part.numerator part.denominator)

/-- The first and the last second, since 1970, of the years that fit 32 bits. -/
def yearRange : Int × Int := (-67768040609740800, 67768036191676799)

/-- The instant at a number of microseconds since 1970; `seconds` are the whole
seconds among them. -/
def instantSinceEpoch (seconds micros : Int) : Except Failure Instant :=
  if seconds < -9223372036854775808 ∨ 9223372036854775808 ≤ seconds then .error .numberOverflow
  else if seconds < yearRange.1 ∨ yearRange.2 < seconds then .error .secondsOverflow
  -- The year has a number, but may still lie off the calendar.
  else match Instant.ofMicros? (epochMicros + micros) with
    | some i => .ok i
    | none => .error .yearOffCalendar

/-- The instant at some seconds since 1970. -/
def instantOfSeconds : Value → Except Failure Instant
  | .bool b => instantSinceEpoch b.toNat (b.toNat * microsPerSecond)
  | .int n => instantSinceEpoch n (n * microsPerSecond)
  | .float x =>
    if x.isNaN then .error .malformedNumber
    else if x.isInfinite then .error .numberOverflow
    else instantSinceEpoch (microsOfSeconds x / microsPerSecond) (microsOfSeconds x)
  | _ => .error .wrongType

/-! ## Requests -/

/-- A job for a queue. -/
structure JobRequest where
  /-- What to do. -/
  kind : JobKind
  /-- The id of the item. -/
  itemId : Value
  /-- When to do it. -/
  fireAt : DateTime

namespace JobRequest

/-- What the queue hands back when the job is due. -/
def payload (job : JobRequest) : Value := .map [(.text "id", job.itemId)]

/-- The instant in seconds since 1970. -/
def startAfter (job : JobRequest) : Binary64 := secondsOfMicros (job.fireAt.utcMicros - epochMicros)

end JobRequest

end Deferral
