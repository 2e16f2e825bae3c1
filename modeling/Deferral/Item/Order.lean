/-
# Deferral.Item.Order -- the order of the comments of an item

Comments of a pinned item come newest first. Those of an old item come by score,
unless it is the profile of a person, since the ranking by activity means nothing
once activity has ceased. All others come by activity. An item is old if it was
created before the day that lies a number of days back.
-/

import Deferral.Calendar.Shift
import Deferral.Item

namespace Deferral

/-- An order of comments. -/
inductive SortMode where
  | recent
  | top
  | hot
deriving DecidableEq, Repr

namespace SortMode

/-- The name of an order. -/
def name : SortMode → String
  | recent => "recent"
  | top => "top"
  | hot => "hot"

end SortMode

/-- The days after which an item is old, unless the settings say otherwise. -/
def defaultOldItemDays : Int := 3

/-- A fraction rounded to the nearest integer, and to the even one of two. -/
def roundRatio (num : Int) (den : Nat) : Int :=
  withSign (num < 0) (roundHalfEven num.natAbs den)

/-- The length of a number of days in microseconds. -/
def Value.daysLength : Value → Except Failure Int
  | .bool b => .ok (b.toNat * microsPerDay)
  | .int n => .ok (n * microsPerDay)
  | .float x =>
    if x.isNaN then .error .malformedNumber
    else if x.isInfinite then .error .numberOverflow
    else .ok (roundRatio (x.signedNumerator * microsPerDay) x.denominator)
  | _ => .error .wrongType

/-- The instant before which items are old. -/
def oldBefore (now : Instant) (oldItemDays : Value) : Except Failure Instant := do
  let length ← oldItemDays.daysLength
  now.addSpan (-length)

/-- The order of the comments of an item. -/
def chooseSortMode (pinned bio createdAt : Value) (now : DateTime) (oldItemDays : Value) :
    Except Failure SortMode := do
  if pinned.isPresent then return .recent
  let now ← now.toInstant
  if bio.isPresent then return .hot
  let created ← createdAt.toInstant
  let limit ← oldBefore now oldItemDays
  return if created < limit then .top else .hot

/-- The order of the comments of an item. -/
def Item.sortMode (item : Item) (now : DateTime) (oldItemDays : Value) : Except Failure SortMode :=
  chooseSortMode item.pinned item.bio item.createdAt now oldItemDays

end Deferral
