/-
# Deferral.Item.Redaction -- what deletion does to an item

A deleted item keeps its place but not its content: the text and the title are
replaced by a notice, and the address and the cost of a poll go. What the item
never had stays as it is, and an item that is deleted already keeps the instant
of its deletion.
-/

import Deferral.Item

namespace Deferral.Item

/-- The text of a deleted item. -/
def deletedText : String := "*deleted by author*"

/-- The title of a deleted item. -/
def deletedTitle : String := "deleted by author"

/-- The instant at which an item counts as deleted. -/
def deletionInstant (item : Item) (now : DateTime) : Except Failure Value :=
  if item.deletedAt.isNull then now.toInstant.map fun i => .dateTime (.utc i)
  else .ok item.deletedAt

/-- A change of a field that the item has. -/
def changeIfPresent (item : Item) (field : Field) (value : Value) : List (Field × Value) :=
  if (item.get field).isPresent then [(field, value)] else []

/-- The changes that redact an item. -/
def redaction (item : Item) (now : DateTime) : Except Failure (List (Field × Value)) := do
  let deletedAt ← item.deletionInstant now
  return (.deletedAt, deletedAt) :: (item.changeIfPresent .text (.text deletedText) ++
    item.changeIfPresent .title (.text deletedTitle) ++
    item.changeIfPresent .url .null ++ item.changeIfPresent .pollCost .null)

end Deferral.Item
