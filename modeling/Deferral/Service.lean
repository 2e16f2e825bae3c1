/-
# Deferral.Service -- items and jobs together

The service joins a store of items, a queue of jobs, a publisher and a clock. It
enqueues the jobs that an item asks for, and it runs jobs that are due. Its operations
are actions: they change the state of the service and leave records in its log, also
when they fail.
-/

import Deferral.Directive.Resolve
import Deferral.Job.Queue
import Deferral.Store

namespace Deferral

/-- The state of the service. -/
structure Service where
  /-- The items. -/
  store : Store
  /-- The queue for jobs. -/
  queue : Queue
  /-- The ids that the publisher was given, if there is a publisher. -/
  published : Option (List Int)
  /-- The time. -/
  clock : DateTime
  /-- The records so far. -/
  log : List LogRecord

/-- An operation on the service that gives a result or fails. -/
abbrev Action (α : Type) := ExceptT Failure (StateM Service) α

namespace Service

/-! ## Parts of actions -/

/-- Leaves a record, if its message can be put together. -/
def note (level : Level) (message : Except Failure String) : Action Unit :=
  modify fun service => { service with log := service.log ++ recordsOf level message }

/-- An operation on the store. -/
def onStore {α : Type} (act : Store → Except Failure α × Store) : Action α := fun service =>
  let (result, store) := act service.store
  (result, { service with store })

/-- A submission to the queue. -/
def submit (kind payload startAfter : Value) : Action Unit := fun service =>
  let (result, queue) := service.queue.submit kind payload startAfter
  -- Records are left only by a submission that succeeds.
  let records := result.toOption.getD []
  (result.map fun _ => (), { service with queue, log := service.log ++ records })

/-- The time that is given, or else that of the clock. -/
def timeOr (given : Option DateTime) : Action DateTime := do
  return given.getD (← get).clock

/-! ## Items -/

/-- Records that an item was saved. -/
def noteSaved (item : Item) : Action Unit := do
  let store := (← get).store
  note .debug do
    let id ← item.id.plainString
    let name ← Store.fileName item.id
    return s!"Saved item {id} to {String.ofList (store.filePath name)}"

/-- Saves an item. -/
def save (item : Item) : Action Unit := do
  onStore (·.save item)
  noteSaved item

/-- The item of an id, if it is stored. -/
def find (id : Value) : Action (Option Item) := do
  ofExcept ((← get).store.find id)

/-- Changes fields of an item, which are given by name. -/
def update (id : Value) (changes : List (String × Value)) : Action Item := do
  let item ← onStore (·.updateNamed id changes)
  noteSaved item
  return item

/-- Deletes an item on behalf of its author. -/
def redact (id : Value) (item : Option Item) (now : Option DateTime) : Action Item := do
  let now ← timeOr now
  let item ← onStore (·.redact id item now)
  noteSaved item
  return item

/-! ## Enqueuing jobs -/

/-- Submits a request to the queue and records it. -/
def enqueue (task : String) (request : JobRequest) : Action Unit := do
  note .info do
    let id ← request.itemId.plainString
    return s!"Enqueuing {task} of item {id} at {String.ofList request.fireAt.iso}"
  submit (.text request.kind.name) request.payload (.float request.startAfter)

/-- Enqueues the deletion that the text of an item asks for, if it does. -/
def enqueueDelete (item : Item) (now : Option DateTime) : Action Bool := do
  let now ← timeOr now
  let text ← ofExcept item.directiveText
  let resolution ← ofExcept (resolveDelete text now)
  match resolution.timestamp with
  | none => return false
  | some due =>
    enqueue "delete" ⟨.delete, item.id, .utc due⟩
    return true

/-- Enqueues the publication of an item, if it has an instant for it. -/
def enqueuePublish (item : Item) : Action Bool := do
  if item.scheduledAt.isNull then return false
  let due ← ofExcept item.scheduledAt.toInstant
  enqueue "publish" ⟨.publish, item.id, .utc due⟩
  return true

/-! ## Running jobs that are due -/

/-- A message that ends in the id of an item. -/
def messageOn (words : String) (id : Int) : Except Failure String :=
  (Value.int id).plainString.map fun shown => s!"{words} {shown}"

/-- Deletes an item; one that is gone is left alone. -/
def deleteDue (id : Int) : Action (Option Item) := do
  note .info (messageOn "Deleting item" id)
  try
    return some (← redact (.int id) none none)
  catch
    | .itemNotFound _ =>
      note .warning (messageOn "Attempted to delete an item that does not exist:" id)
      return none
    | failure => throw failure

/-- Hands an item to the publisher. -/
def publishDue (id : Int) : Action (Option Item) := do
  note .info (messageOn "Posting scheduled item" id)
  match (← get).published with
  | none => throw .noPublisher
  | some ids =>
    modify fun service => { service with published := some (ids ++ [id]) }
    return none

/-- Runs a job that is due. -/
def handle (name payload : Value) : Action (Option Item) := do
  let kind ← ofExcept (JobKind.ofValue name)
  let id ← ofExcept ((payload.select "id").bind Value.toInteger)
  match kind with
  | .delete => deleteDue id
  | .publish => publishDue id

end Service

end Deferral
