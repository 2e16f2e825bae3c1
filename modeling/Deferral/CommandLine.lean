/-
# Deferral.CommandLine -- what commands do

A command reads the settings, works on the items in the folder that they name, and
prints what it finds. `Command.run` gives a report of all of this: the lines printed,
the files afterwards, the requests to the job queue and the log. An item that is not
stored is told to the person who asked for it; all other failures end the command.
-/

import Deferral.CommandLine.Command
import Deferral.Folder.Tree
import Deferral.Service
import Deferral.Settings

namespace Deferral

/-- What a command finds when it begins. -/
structure Surroundings where
  /-- The working folder. -/
  files : Tree
  /-- The environment. -/
  environment : Environment
  /-- The time. -/
  clock : DateTime
  /-- The answers of the job queue. -/
  answers : List Answer

/-- What a command has done so far. -/
structure Progress where
  /-- The working folder. -/
  files : Tree
  /-- The lines that were printed. -/
  lines : List String
  /-- The requests to the job queue. -/
  requests : List Request
  /-- The records of the log that are shown. -/
  log : List LogRecord

/-- A part of a command. -/
abbrev Task (α : Type) := ExceptT Failure (StateM Progress) α

namespace Command

/-! ## Parts of commands -/

/-- Prints a line. -/
def say (line : String) : Task Unit :=
  modify fun progress => { progress with lines := progress.lines ++ [line] }

/-- What a file operation gives. -/
def refuse {α : Type} (result : Except FileFault α) : Task α :=
  ofExcept (result.mapError .fileRefused)

/-- What makes a document of the text of a file. Settings pass on the values of attributes as
they are, so a kind of value that no command knows may be stood for by another one. -/
abbrev Loader := List Char → Except Failure Value

/-- The document in the settings file, which may be missing. -/
def loadConfig (load : Loader) (config : Pathname) : Task Value := do
  let files := (← get).files
  if ← refuse (files.has config) then
    ofExcept (load (← refuse (files.read config)))
  else return .null

/-- The settings, which depend on the loader only through the document. -/
def loadSettings (load : Loader) (around : Surroundings) (config : Pathname) :
    Task Settings := do
  ofExcept (Settings.ofDocument (← loadConfig load config) around.environment)

/-- The settings of a file in YAML. -/
def readSettings (around : Surroundings) (config : Pathname) : Task Settings :=
  loadSettings Yaml.read around config

/-- The location of the folder of the items, which is made if nothing is there. A file
in its place holds no items. -/
def openFolder (path : Pathname) : Task (Option Location) := do
  let files := (← get).files
  if ← refuse (files.has path) then
    let place ← refuse (files.locate path)
    match place.entry with
    | .folder => return some place.location
    | .file _ => return none
  else
    let (files, location) ← refuse (files.makePath path)
    modify fun progress => { progress with files }
    return some location

/-- The records that are shown. -/
def shown (verbose : Bool) (log : List LogRecord) : List LogRecord :=
  log.filter fun record => verbose || record.level == .warning

/-- An operation of the service on the items in a folder. -/
def perform {α : Type} (around : Surroundings) (verbose : Bool) (path : Pathname)
    (location : Location) (queue : Queue) (act : Action α) : Task α := fun progress =>
  let service : Service :=
    { store := ⟨path, progress.files.folderAt location⟩, queue, published := none
      clock := around.clock, log := [] }
  let (result, service) := act service
  (result, {
    files := progress.files.setFolder location service.store.folder
    lines := progress.lines
    requests := progress.requests ++ service.queue.sent
    log := progress.log ++ shown verbose service.log })

/-- An operation of the service on an item, which has to be stored. -/
def performOn {α : Type} (around : Surroundings) (verbose : Bool) (settings : Settings)
    (queue : Queue) (id : Int) (act : Action α) : Task α := do
  match ← openFolder settings.contentFolder with
  | some location => perform around verbose settings.contentFolder location queue act
  | none => throw (.itemNotFound id)

/-- Tells of an item that is not stored; the command has an exit code then. -/
def orMissing (task : Task Unit) : Task Nat := do
  try
    task
    return 0
  catch
    | .itemNotFound id =>
      say s!"❌ {Failure.notFoundMessage (toString id)}"
      return 1
    | failure => throw failure

/-! ## Showing directives -/

/-- The line on the deletion that a text asks for. -/
def deletionLine (text : List Char) (now : DateTime) : Except Failure String := do
  let resolution ← resolveDelete (some text) now
  match resolution.timestamp with
  | some due => return s!"✓ delete at:   {String.ofList due.isoMillis}"
  | none =>
    if mentionsDelete (some text) then
      return "⚠️  @delete mentioned but not understood (expected '@delete in <N> <unit>')"
    else return "• no delete directive"

/-- The lines on the publication that a text asks for. -/
def publicationLines (text : List Char) (now : DateTime) : Except Failure (List String) := do
  let resolution ← resolveSchedule (some text) now
  match resolution.timestamp with
  | some due =>
    let pinned := resolution.text.getD []
    return s!"✓ publish at:  {String.ofList due.isoMillis}" ::
      if pinned = text then [] else [s!"  rewritten:   {String.ofList pinned}"]
  | none =>
    if mentionsSchedule (some text) then
      return ["⚠️  @schedule mentioned but not understood " ++
        "(expected '@schedule in <N> <unit>' or '@schedule on <timestamp>')"]
    else return ["• no schedule directive"]

/-- Shows the directives of a text. -/
def runResolve (around : Surroundings) (text : String) (now : Option DateTime) : Task Unit := do
  let now ← match now with
    | some now => pure now
    | none => DateTime.utc <$> ofExcept around.clock.toInstant
  say (← ofExcept (deletionLine text.toList now))
  for line in ← ofExcept (publicationLines text.toList now) do
    say line

/-! ## Showing an order -/

/-- Shows the order of the comments of an item. -/
def runSortMode (around : Surroundings) (createdAt : DateTime) (pinned bio : Bool)
    (config : Pathname) : Task Unit := do
  let settings ← readSettings around config
  let mode ← ofExcept
    (chooseSortMode (.bool pinned) (.bool bio) (.dateTime createdAt) around.clock
      settings.oldItemDays)
  say mode.name

/-! ## Deleting an item -/

/-- The line on an item that was deleted. -/
def deletedLine (item : Item) : Except Failure String := do
  let id ← item.id.plainString
  let deleted ← item.deletedAt.toInstant
  return s!"✓ Item {id} deleted at {String.ofList deleted.isoMillis}"

/-- Deletes an item. -/
def runRedact (around : Surroundings) (id : Int) (config : Pathname) (verbose : Bool) :
    Task Unit := do
  let settings ← readSettings around config
  let item ← performOn around verbose settings (.memory []) id
    (Service.redact (.int id) none none)
  say (← ofExcept (deletedLine item))

/-! ## Enqueuing jobs -/

/-- The queue that jobs go to: one in memory for a dry run, and where no endpoint is
known. -/
def queueOf (around : Surroundings) (settings : Settings) (dryRun : Bool) : Queue :=
  if dryRun || !settings.jobQueueUrl.isPresent then .memory []
  else
    -- The settings file has no place for a token: only the environment can give one.
    let token := (settings.jobQueueToken.map Value.text).getD .null
    .http ⟨⟨settings.jobQueueUrl, token, settings.jobQueueTimeout⟩, around.answers, []⟩

/-- The line on a job of a dry run. -/
def jobLine (job : JobRequest) : Except Failure String := do
  let id ← job.itemId.plainString
  let due ← job.fireAt.toInstant
  return s!"  • {job.kind.name} item {id} at {String.ofList due.isoMillis}"

/-- The lines on the jobs that were enqueued. -/
def enqueuedLines (settings : Settings) : Queue → Except Failure (List String)
  | .memory jobs => do
    return "⚠️  Dry run, nothing was sent to the job queue:" :: (← jobs.mapM jobLine)
  | .http _ => do
    return [s!"✓ Submitted jobs to {← settings.jobQueueUrl.plainString}"]

/-- Enqueues the jobs that an item asks for, and gives the lines on them. -/
def enqueueJobs (settings : Settings) (id : Int) : Action (List String) := do
  match ← Service.find (.int id) with
  | none => throw (.itemNotFound id)
  | some item =>
    let deleting ← Service.enqueueDelete item none
    let publishing ← Service.enqueuePublish item
    if deleting || publishing then ofExcept (enqueuedLines settings (← get).queue)
    else return [s!"• Item {id} has nothing to schedule"]

/-- Enqueues the jobs that an item asks for. -/
def runEnqueue (around : Surroundings) (id : Int) (config : Pathname) (dryRun verbose : Bool) :
    Task Unit := do
  let settings ← readSettings around config
  let lines ← performOn around verbose settings (queueOf around settings dryRun) id
    (enqueueJobs settings id)
  for line in lines do
    say line

/-! ## Running commands -/

/-- What a command does, and its exit code. -/
def task (around : Surroundings) : Command → Task Nat
  | resolve text now => do
    runResolve around text now
    return 0
  | sortMode createdAt pinned bio config => do
    runSortMode around createdAt pinned bio config
    return 0
  | redact id config verbose => orMissing (runRedact around id config verbose)
  | enqueue id config dryRun verbose => orMissing (runEnqueue around id config dryRun verbose)

/-- The exit code of a command that was not understood. -/
def misuse : Nat := 2

/-- Runs the command that words stand for: its exit code, or the failure that ended it,
and what it has done. -/
def run (around : Surroundings) (words : List String) : Except Failure Nat × Progress :=
  let start : Progress := { files := around.files, lines := [], requests := [], log := [] }
  match ofWords? words with
  | none => (.ok misuse, start)
  | some command => (command.task around).run start

end Command

end Deferral
