/-
# Deferral.Job.Memory -- a queue that only keeps its jobs

A dry run puts its jobs into a list. The payload has to name an item by something
that stands for an integer, and the seconds have to be an instant.
-/

import Deferral.Job

namespace Deferral.JobRequest

/-- The job that a queue in memory keeps for a submission. -/
def ofSubmission (kind payload startAfter : Value) : Except Failure JobRequest := do
  let kind ← JobKind.ofValue kind
  let id ← payload.select "id"
  let itemId ← id.toInteger
  let fireAt ← instantOfSeconds startAfter
  return ⟨kind, .int itemId, .utc fireAt⟩

end Deferral.JobRequest
