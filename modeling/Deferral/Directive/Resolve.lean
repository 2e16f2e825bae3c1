/-
# Deferral.Directive.Resolve -- from directives to instants

Resolving a directive finds the instant that it asks for, given the time at
which it is read. A publication after a delay is replaced by the timestamp of
its instant, so that the returned text asks for the same instant whenever it is
read again. A directive that leads off the calendar asks for nothing; a clock
whose own reading lies off the calendar is a failure.
-/

import Deferral.Directive.Match

namespace Deferral

/-- A text, and the instant that one of its directives asks for. -/
structure Resolution where
  /-- The text, in which a delay may have become a timestamp. -/
  text : Option (List Char)
  /-- The instant, if one is asked for. -/
  timestamp : Option Instant
deriving DecidableEq

namespace Resolution

/-- A directive was found. -/
def found (r : Resolution) : Bool := r.timestamp.isSome

end Resolution

/-- A text mentions a deletion. -/
def mentionsDelete (text : Option (List Char)) : Bool := text.any (mentionsToken deleteToken)

/-- A text mentions a publication. -/
def mentionsSchedule (text : Option (List Char)) : Bool := text.any (mentionsToken scheduleToken)

/-- The instant after a delay, if the calendar has it. -/
def Delay.after? (delay : Delay) (now : Instant) : Option Instant :=
  (now.add delay.unit delay.number).toOption

/-- The deletion that a text asks for. -/
def resolveDelete (text : Option (List Char)) (now : DateTime) : Except Failure Resolution :=
  match text.map matchDelete with
  | some (.found delay _ _) => do
    let i ← now.toInstant
    return ⟨text, delay.after? i⟩
  | _ => .ok ⟨text, none⟩

/-- A text asks for a deletion. -/
def hasDeleteCommand (text : Option (List Char)) (now : DateTime) : Except Failure Bool :=
  (resolveDelete text now).map Resolution.found

/-- The phrase of a publication at an instant. -/
def publicationPhrase (i : Instant) : List Char := scheduleToken ++ " on ".toList ++ i.isoMillis

/-- A text whose part from `start` to `stop` is replaced. -/
def splice (text : List Char) (start stop : Nat) (phrase : List Char) : List Char :=
  text.take start ++ phrase ++ text.drop stop

/-- A text whose first publication after a delay has become one at a timestamp. -/
def pinDelay (text : List Char) (now : DateTime) : Except Failure Resolution :=
  match matchScheduleDelay text with
  | .found delay start stop => do
    let i ← now.toInstant
    match delay.after? i with
    | none => return ⟨some text, none⟩
    | some due =>
      -- The text has room for milliseconds only, and has to ask for this very instant.
      let due := due.truncateToMillis
      return ⟨some (splice text start stop (publicationPhrase due)), some due⟩
  | _ => .ok ⟨some text, none⟩

/-- The publication that a text asks for. A timestamp goes before a delay. -/
def resolveSchedule (text : Option (List Char)) (now : DateTime) : Except Failure Resolution :=
  match text with
  | none => .ok ⟨none, none⟩
  | some text =>
    match matchScheduleMoment text with
    | .found moment _ _ => .ok ⟨some text, some moment.instant⟩
    | _ => pinDelay text now

/-- A text resolved at one time after the other, each time as the last success left it. -/
def resolveScheduleAgain (text : Option (List Char)) :
    List DateTime → List (Except Failure Resolution)
  | [] => []
  | now :: later =>
    match resolveSchedule text now with
    | .ok r => .ok r :: resolveScheduleAgain r.text later
    | .error failure => .error failure :: resolveScheduleAgain text later

/-- A clock reading in UTC, to the millisecond. -/
def formatInstant (t : DateTime) : Except Failure (List Char) := t.toInstant.map Instant.isoMillis

end Deferral
