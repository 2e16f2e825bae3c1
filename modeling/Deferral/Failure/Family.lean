/-
# Deferral.Failure.Family -- families of failures

Callers that care for more than one cause ask for a family. All families belong to one
that includes the rest, and the failures of the collaborators, which are the store and
the job queue, have a family in common.
-/

import Deferral.Value.Text

namespace Deferral

/-- A family of failures. -/
inductive Family where
  /-- All failures that concern content. -/
  | content
  /-- An item is not stored. -/
  | notFound
  /-- A collaborator failed. -/
  | external
  /-- The store failed, or refused. -/
  | store
  /-- The job queue failed, or refused. -/
  | queue
deriving DecidableEq, Repr

namespace Family

/-- A family and all larger ones. -/
def lineage : Family → List Family
  | content => [content]
  | notFound => [notFound, content]
  | external => [external, content]
  | store => [store, external, content]
  | queue => [queue, external, content]

/-- The report of a failure of a family on a subject: what is not found, or else the
report itself. -/
def report (family : Family) (subject : Value) : Except Failure String := do
  let shown ← subject.plainString
  return if family = notFound then Failure.notFoundMessage shown else shown

/-- The id of the item that a failure of a family is about. -/
def itemId (family : Family) (subject : Value) : Value :=
  if family = notFound then subject else .null

end Family

/-- The family of a failure, if it concerns content. -/
def Failure.family? : Failure → Option Family
  | itemNotFound _ => some .notFound
  | unknownFields _ | frozenFields _ _ | unreadableItem _ _ | unwritableItem _ _ => some .store
  | jobNotSubmitted _ _ => some .queue
  | _ => none

end Deferral
