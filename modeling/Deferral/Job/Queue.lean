/-
# Deferral.Job.Queue -- queues that take jobs

A queue is either a list in memory or an HTTP endpoint. Both take the same
submission: a kind, a payload and the seconds since 1970. The list keeps the jobs. The
endpoint gets a request for each, and `HttpQueue.sent` keeps the requests, also those
that the endpoint did not accept.
-/

import Deferral.Job.Answer
import Deferral.Job.Http
import Deferral.Job.Memory
import Deferral.Log

namespace Deferral

/-- A queue behind an endpoint. -/
structure HttpQueue where
  /-- Where the requests go. -/
  endpoint : Endpoint
  /-- The answers to the next requests. All later ones are accepted. -/
  answers : List Answer
  /-- The requests so far. -/
  sent : List Request

namespace HttpQueue

/-- The records of a job that the endpoint has accepted. -/
def acceptedRecords (kind : JobKind) (payload : Value) : List LogRecord :=
  recordsOf .debug (payload.plainString.map fun shown => s!"Submitted {kind.name} job {shown}")

/-- The queue after a request was sent. -/
def send (queue : HttpQueue) (request : Request) : HttpQueue :=
  { queue with answers := queue.answers.tail, sent := queue.sent ++ [request] }

/-- The outcome of a request, given the answer to it. -/
def outcome (kind : JobKind) (payload : Value) (address : Address) (answer : Answer) :
    Except Failure (List LogRecord) := do
  match ← answer.report? address with
  | some report => throw (.jobNotSubmitted kind.name report)
  | none => return acceptedRecords kind payload

/-- Submits a job with one request. -/
def submit (queue : HttpQueue) (kind payload startAfter : Value) :
    Except Failure (List LogRecord) × HttpQueue :=
  match JobKind.ofValue kind with
  | .error failure => (.error failure, queue)
  | .ok kind =>
    match queue.endpoint.request kind payload startAfter with
    | .error failure => (.error failure, queue)
    | .ok request =>
      (outcome kind payload request.address (queue.answers.headD .accepted), queue.send request)

end HttpQueue

/-- A queue for jobs. -/
inductive Queue where
  /-- A list of the jobs, the first one first. -/
  | memory (jobs : List JobRequest)
  /-- An endpoint. -/
  | http (queue : HttpQueue)

namespace Queue

/-- The jobs that a queue in memory keeps. -/
def jobs : Queue → List JobRequest
  | memory jobs => jobs
  | http _ => []

/-- The requests that were sent. -/
def sent : Queue → List Request
  | memory _ => []
  | http queue => queue.sent

/-- Submits a job, and gives the records that this leaves. -/
def submit (queue : Queue) (kind payload startAfter : Value) :
    Except Failure (List LogRecord) × Queue :=
  match queue with
  | memory jobs =>
    match JobRequest.ofSubmission kind payload startAfter with
    | .error failure => (.error failure, memory jobs)
    | .ok job => (.ok [], memory (jobs ++ [job]))
  | http queue =>
    match queue.submit kind payload startAfter with
    | (result, queue) => (result, http queue)

end Queue

end Deferral
