/-
# Deferral.Settings -- settings from a file and the environment

Settings come in four sections. Each has attributes with defaults, and the settings
file may give them other values and add further ones. Three names are reserved: one
stands for all attributes of the section at once, and two cannot be given. The address
of the job queue may also come from the environment, which goes before the file, and
the token of the queue comes from there alone.
-/

import Deferral.Folder.Path
import Deferral.Item.Order
import Deferral.Item.Thread
import Deferral.Value.Text

namespace Deferral

/-! ## Attributes -/

/-- Attributes of a section, by name. -/
structure Attributes (α : Type) where
  /-- The names and values. -/
  entries : List (String × α)

namespace Attributes

variable {α : Type}

/-- The value of an attribute. -/
def get? (attributes : Attributes α) (name : String) : Option α :=
  (attributes.entries.find? (·.1 == name)).map Prod.snd

/-- The attributes with another value for one of them. -/
def set (attributes : Attributes α) (name : String) (value : α) : Attributes α :=
  ⟨(name, value) :: attributes.entries.filter (·.1 != name)⟩

end Attributes

/-! ## Settings -/

/-- What the environment says. -/
structure Environment where
  /-- The address of the job queue. -/
  jobQueueUrl : Option String
  /-- The token of the job queue. -/
  jobQueueToken : Option String

/-- The settings. -/
structure Settings where
  /-- The token of the job queue. -/
  jobQueueToken : Option String
  /-- How directives and orders work. -/
  directives : Attributes Value
  /-- How threads are shown. -/
  threads : Attributes Value
  /-- Where jobs go. -/
  jobQueue : Attributes Value
  /-- Where items are. -/
  storage : Attributes Pathname

namespace Settings

/-- The seconds to wait for a job queue, unless the settings say otherwise. -/
def defaultTimeout : Binary64 := .ofInt 30

/-- The folder of the items, unless the settings say otherwise. -/
def defaultFolder : Pathname := ⟨.here, ["content"]⟩

/-- The settings where nothing is said. -/
def default : Settings where
  jobQueueToken := none
  directives := ⟨[("old_item_days", .int defaultOldItemDays)]⟩
  threads := ⟨[("comment_depth_limit", .int defaultDepthLimit)]⟩
  jobQueue := ⟨[("url", .null), ("timeout", .float defaultTimeout)]⟩
  storage := ⟨[("content_dir", defaultFolder)]⟩

/-! ## Single settings -/

/-- The days after which an item is old. -/
def oldItemDays (settings : Settings) : Value :=
  (settings.directives.get? "old_item_days").getD (.int defaultOldItemDays)

/-- The depth to which threads are shown. -/
def commentDepthLimit (settings : Settings) : Value :=
  (settings.threads.get? "comment_depth_limit").getD (.int defaultDepthLimit)

/-- The address of the job queue. -/
def jobQueueUrl (settings : Settings) : Value :=
  (settings.jobQueue.get? "url").getD .null

/-- The seconds to wait for the job queue. -/
def jobQueueTimeout (settings : Settings) : Value :=
  (settings.jobQueue.get? "timeout").getD (.float defaultTimeout)

/-- The folder of the items. -/
def contentFolder (settings : Settings) : Pathname :=
  (settings.storage.get? "content_dir").getD defaultFolder

/-! ## Reading settings -/

/-- A text stands somewhere in another one. -/
def occursIn (word : List Char) : List Char → Bool
  | [] => word.isEmpty
  | c :: rest => word.isPrefixOf (c :: rest) || occursIn word rest

/-- The entries of a section in a document. A text or a list that names the section
has no entries to offer, and other documents that are not mappings have no names. -/
def section? (name : String) (document : Value) : Except Failure (Option (List (Value × Value))) :=
  if document.isPresent then
    match document with
    | .map sections =>
      match Value.entry? name sections with
      | none => .ok none
      | some (.map entries) => .ok (some entries)
      | some _ => .error .missingOperation
    | .text text => if occursIn name.toList text.toList then .error .wrongType else .ok none
    | .list items =>
      if items.any fun item => item.same (.text name) then .error .wrongType else .ok none
    | _ => .error .wrongType
  else .ok none

/-- How the attributes of a section are given. -/
structure SectionForm (α : Type) where
  /-- The name of the section. -/
  name : String
  /-- What the value of an entry stands for. -/
  ofValue : Value → Except Failure α
  /-- All attributes at once, if something stands for them. -/
  whole? : α → Option (Attributes α)

/-- The reserved name of all attributes at once. -/
def wholeName : String := "__dict__"

/-- The reserved name of the kind of a section, which nothing in a document can be. -/
def kindName : String := "__class__"

/-- The reserved name of an attribute that is not there to be given. -/
def lockedName : String := "__weakref__"

/-- Attributes after an entry, whose value is understood already. -/
def assign {α : Type} (form : SectionForm α) (attributes : Attributes α) (name : String)
    (value : α) : Except Failure (Attributes α) :=
  if name = wholeName then
    match form.whole? value with
    | some whole => .ok whole
    | none => .error .wrongType
  else if name = kindName then .error .wrongType
  else if name = lockedName then .error .missingOperation
  else .ok (attributes.set name value)

/-- Attributes after the entries of a section. -/
def assignAll {α : Type} (form : SectionForm α) (attributes : Attributes α) :
    List (Value × Value) → Except Failure (Attributes α)
  | [] => .ok attributes
  | (.text name, value) :: rest => do
    let attributes ← assign form attributes name (← form.ofValue value)
    assignAll form attributes rest
  | _ => .error .wrongType

/-- Attributes after a section of a document, if it is there. -/
def readSection {α : Type} (form : SectionForm α) (document : Value)
    (attributes : Attributes α) : Except Failure (Attributes α) := do
  match ← section? form.name document with
  | none => return attributes
  | some entries => assignAll form attributes entries

/-- The attributes that the entries of a mapping are, if the value is one. -/
def attributesOfValue? : Value → Option (Attributes Value)
  | .map entries => some ⟨entries.filterMap fun entry =>
      entry.1.plainString.toOption.map fun name => (name, entry.2)⟩
  | _ => none

/-- The form of a section of values of any kind. -/
def valueSection (name : String) : SectionForm Value := ⟨name, .ok, attributesOfValue?⟩

/-- The path that a value names. -/
def pathOfValue : Value → Except Failure Pathname
  | .text path => .ok (.ofText path.toList)
  | _ => .error .wrongType

/-- The form of a section of paths, of which none stands for all attributes. -/
def pathSection (name : String) : SectionForm Pathname := ⟨name, pathOfValue, fun _ => none⟩

/-- The attributes of the job queue after the address of the environment. -/
def overrideUrl (environment : Environment) (jobQueue : Attributes Value) : Attributes Value :=
  match environment.jobQueueUrl with
  | none => jobQueue
  | some url => if url.isEmpty then jobQueue else jobQueue.set "url" (.text url)

/-- The settings of a document and an environment. -/
def ofDocument (document : Value) (environment : Environment) : Except Failure Settings := do
  let directives ← readSection (valueSection "directives") document default.directives
  let threads ← readSection (valueSection "threads") document default.threads
  let jobQueue ← readSection (valueSection "job_queue") document default.jobQueue
  let storage ← readSection (pathSection "storage") document default.storage
  return {
    jobQueueToken := environment.jobQueueToken
    directives, threads, storage
    jobQueue := overrideUrl environment jobQueue }

end Settings

end Deferral
