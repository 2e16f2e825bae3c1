/-
# Deferral.Main -- the command line

The program reads the settings file and the file of the item that its command is
about, runs the command, and writes the file back if it has changed. Lines go to the
standard output, and records of the log and failures to the standard error. It has no
transport to a job queue: requests fail, and a dry run shows the jobs.
-/

import Deferral.CommandLine
import Std.Time.DateTime.Timestamp

namespace Deferral.Program

/-- The time of the system. -/
def systemClock : IO DateTime := do
  let now ← Std.Time.Timestamp.now
  let micros := now.toNanosecondsSinceUnixEpoch.val / 1000
  match Instant.ofMicros? (epochMicros + micros) with
  | some i => return .utc i
  | none => throw (IO.userError "the clock is off the calendar")

/-- What the environment of the process says. -/
def processEnvironment : IO Environment := do
  return ⟨← IO.getEnv "JOB_QUEUE_URL", ← IO.getEnv "JOB_QUEUE_TOKEN"⟩

/-- The text of a path. -/
def shownPath (path : Pathname) : String := String.ofList path.text

/-- The tree with the file at a path, if it can be read. -/
def load (files : Tree) (path : Pathname) : IO Tree := do
  try
    let text ← IO.FS.readFile (shownPath path)
    return (files.writeFile path text.toList).toOption.getD files
  catch _ => return files

/-- The settings file and the item that a command is about. -/
def subject? : Command → Option (Pathname × Option Int)
  | .resolve _ _ => none
  | .sortMode _ _ _ config => some (config, none)
  | .redact id config _ => some (config, some id)
  | .enqueue id config _ _ => some (config, some id)

/-- The folder of the items, if the settings can be read. -/
def contentFolder? (around : Surroundings) (config : Pathname) : Option Pathname :=
  let start : Progress := { files := around.files, lines := [], requests := [], log := [] }
  match (Command.readSettings around config).run start with
  | (.ok settings, _) => some settings.contentFolder
  | (.error _, _) => none

/-- The path of the file of the item that a command is about, if there is one. -/
def itemPath? (around : Surroundings) (config : Pathname) (id : Option Int) : Option Pathname := do
  let folder ← contentFolder? around config
  let name ← (Store.fileName (.int (← id))).toOption
  some (folder.child name)

/-- Writes a file that a command has changed. -/
def writeBack (before after : Tree) (path : Pathname) : IO Unit := do
  match after.read path with
  | .error _ => return
  | .ok text =>
    if (before.read path).toOption ≠ some text then
      IO.FS.writeFile (shownPath path) (String.ofList text)

/-- Runs a command on the files that it is about. -/
def run (words : List String) : IO UInt32 := do
  let mut around : Surroundings := {
    files := .empty
    environment := ← processEnvironment
    clock := ← systemClock
    answers := List.replicate 2 (.transportFailure "no transport") }
  let mut item : Option Pathname := none
  if let some (config, id) := (Command.ofWords? words).bind subject? then
    around := { around with files := ← load around.files config }
    item := itemPath? around config id
    if let some path := item then
      around := { around with files := ← load around.files path }
  let (outcome, progress) := Command.run around words
  if let some path := item then
    writeBack around.files progress.files path
  for line in progress.lines do
    IO.println line
  for record in progress.log do
    IO.eprintln s!"[{record.level.name}] {record.message}"
  match outcome with
  | .ok code => return code.toUInt32
  | .error failure =>
    IO.eprintln (failure.message.getD (toString (repr failure)))
    return 1

end Deferral.Program

/-- Runs the command that the words of the command line stand for. -/
def main (words : List String) : IO UInt32 := Deferral.Program.run words
