/-
# Deferral.CommandLine.Command -- commands and how they are typed

There are four commands: to show the directives of a text, to show the order of the
comments of an item, to delete an item, and to enqueue the jobs that an item asks for.
`Command.ofWords?` refuses words that are no command, that lack something it needs or
have something that it does not know.
-/

import Deferral.Calendar.Typed
import Deferral.CommandLine.Arguments
import Deferral.Folder.Path
import Deferral.Number.Typed

namespace Deferral

/-- A command. -/
inductive Command where
  /-- Show the directives of a text. -/
  | resolve (text : String) (now : Option DateTime)
  /-- Show the order of the comments of an item. -/
  | sortMode (createdAt : DateTime) (pinned bio : Bool) (config : Pathname)
  /-- Delete an item on behalf of its author. -/
  | redact (id : Int) (config : Pathname) (verbose : Bool)
  /-- Submit the jobs that an item asks for. -/
  | enqueue (id : Int) (config : Pathname) (dryRun verbose : Bool)

namespace Command

/-! ## Options -/

/-- The time at which a text is read. -/
def nowOption : OptionForm := ⟨"--now", none, true⟩

/-- The instant at which an item was created. -/
def createdAtOption : OptionForm := ⟨"--created-at", none, true⟩

/-- The item is pinned. -/
def pinnedOption : OptionForm := ⟨"--pinned", none, false⟩

/-- The item is a profile. -/
def bioOption : OptionForm := ⟨"--bio", none, false⟩

/-- The settings file. -/
def configOption : OptionForm := ⟨"--config", none, true⟩

/-- The log is shown in full. -/
def verboseOption : OptionForm := ⟨"--verbose", some 'v', false⟩

/-- Jobs are not submitted. -/
def dryRunOption : OptionForm := ⟨"--dry-run", none, false⟩

/-- The settings file, unless an option names another one. -/
def defaultConfig : String := "config.yaml"

/-- The settings file. Its path cannot have a null character. -/
def config? (arguments : Arguments) : Option Pathname :=
  let path := ((arguments.value? configOption.name).getD defaultConfig).toList
  if path.contains '\x00' then none else some (.ofText path)

/-- The time that an option gives, if it is there; it has to be one. -/
def time? (arguments : Arguments) (option : OptionForm) : Option (Option DateTime) :=
  match arguments.value? option.name with
  | none => some none
  | some typed => (DateTime.readTyped? typed.toList).map some

/-- The only operand. -/
def operand? (arguments : Arguments) : Option String :=
  match arguments.operands with
  | [operand] => some operand
  | _ => none

/-- The only operand, which is an id. -/
def id? (arguments : Arguments) : Option Int :=
  (operand? arguments).bind fun operand => readTypedInteger? operand.toList

/-! ## Commands -/

/-- The command that shows directives. -/
def readResolve? (words : List String) : Option Command := do
  let arguments ← readArguments? [nowOption] words
  let text ← operand? arguments
  let now ← time? arguments nowOption
  some (.resolve text now)

/-- The command that shows an order. -/
def readSortMode? (words : List String) : Option Command := do
  let arguments ←
    readArguments? [createdAtOption, pinnedOption, bioOption, configOption] words
  let createdAt ← (time? arguments createdAtOption).join
  let config ← config? arguments
  if !arguments.operands.isEmpty then none
  some (.sortMode createdAt (arguments.has pinnedOption.name) (arguments.has bioOption.name)
    config)

/-- The command that deletes an item. -/
def readRedact? (words : List String) : Option Command := do
  let arguments ← readArguments? [configOption, verboseOption] words
  let id ← id? arguments
  let config ← config? arguments
  some (.redact id config (arguments.has verboseOption.name))

/-- The command that enqueues jobs. -/
def readEnqueue? (words : List String) : Option Command := do
  let arguments ← readArguments? [configOption, dryRunOption, verboseOption] words
  let id ← id? arguments
  let config ← config? arguments
  some (.enqueue id config (arguments.has dryRunOption.name) (arguments.has verboseOption.name))

/-- The command of a name and further words. -/
def ofName? (name : String) (words : List String) : Option Command :=
  match name with
  | "resolve" => readResolve? words
  | "sort-mode" => readSortMode? words
  | "redact" => readRedact? words
  | "enqueue" => readEnqueue? words
  | _ => none

/-- The command that words stand for. Two hyphens may precede it. -/
def ofWords? : List String → Option Command
  | "--" :: name :: words => ofName? name words
  | name :: words => ofName? name words
  | [] => none

end Command

end Deferral
