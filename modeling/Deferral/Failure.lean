/-
# Deferral.Failure -- why an operation fails

Every operation of the library that can fail says why with a `Failure`. The
causes are the ones a caller can tell apart. `Failure.message` words those that
are reported to a person; the others carry no text.
-/

namespace Deferral

/-- The reasons for which a file system refuses an operation. -/
inductive FileFault where
  /-- There is no such file. -/
  | missing
  /-- There is a file already. -/
  | occupied
  /-- A path leads through a file. -/
  | notFolder
  /-- A folder stands where a file is needed. -/
  | isFolder
  /-- A name, or a path, has too many bytes. -/
  | nameTooLong
  /-- A path has a null character in it. -/
  | nullCharacter
deriving DecidableEq, Repr

namespace FileFault

/-- The number under which systems know a fault. -/
def number : FileFault → Nat
  | missing => 2
  | occupied => 17
  | notFolder => 20
  | isFolder => 21
  | nameTooLong => 36
  | nullCharacter => 22

/-- A fault in words. -/
def words : FileFault → String
  | missing => "No such file or directory"
  | occupied => "File exists"
  | notFolder => "Not a directory"
  | isFolder => "Is a directory"
  | nameTooLong => "File name too long"
  | nullCharacter => "Invalid argument"

/-- The report on a fault at a path, which is given in quotes. -/
def report (fault : FileFault) (quotedPath : String) : String :=
  s!"[Errno {fault.number}] {fault.words}: {quotedPath}"

end FileFault

/-- The reasons for which an operation fails. -/
inductive Failure where
  /-- An instant, or a distance between instants, lies off the calendar. -/
  | offCalendar
  /-- A shift by months or years leads to a year outside 1 to 9999. -/
  | yearOffCalendar
  /-- A shift by months or years leads to a year of more than 32 bits. -/
  | yearOverflow
  /-- No unit of time has this name, which is given in quotes. -/
  | unknownUnit (quoted : String)
  /-- No shift of a date has this keyword. -/
  | unknownShift (keyword : String)
  /-- A shift has the keyword of the date that is shifted. -/
  | repeatedBase
  /-- No kind of job has this name, which is given in quotes. -/
  | unknownJobKind (quoted : String)
  /-- A text or a number stands for no integer, date or instant. -/
  | malformedNumber
  /-- A text in a field for instants is not a timestamp. -/
  | malformedTimestamp
  /-- A number is too large to become an integer or an instant. -/
  | numberOverflow
  /-- A number of seconds lies beyond what a calendar with 32-bit years holds. -/
  | secondsOverflow
  /-- A value, or a set of fields, is not of the type that is needed. -/
  | wrongType
  /-- A value lacks the operation that is asked of it. -/
  | missingOperation
  /-- A selection has no first element. -/
  | emptySelection
  /-- A mapping lacks the key that is asked for. -/
  | missingKey
  /-- A due item cannot be published, since there is no publisher. -/
  | noPublisher
  /-- A job queue needs an address. -/
  | emptyQueueUrl
  /-- The address of a job queue is none, or a redirect leads from it to none. -/
  | malformedAddress
  /-- The address of a job queue does not say by itself where to go. -/
  | relativeAddress
  /-- The text of a header has characters outside ASCII. -/
  | nonAsciiHeader
  /-- The transport of a request broke down with a fault of the given kind, which is
  not one of the exchange with the queue. -/
  | transportBroken (kind : String)
  /-- No item is stored under this id. -/
  | itemNotFound (id : Int)
  /-- An update names fields that items do not have. -/
  | unknownFields (names : List String)
  /-- An update would change fields that are frozen since the item was deleted. -/
  | frozenFields (id : String) (names : List String)
  /-- The file of an item cannot be read; without a detail, it cannot be
  understood. -/
  | unreadableItem (id : String) (detail : Option String)
  /-- The file of an item cannot be written. -/
  | unwritableItem (id : String) (detail : Option String)
  /-- The job queue did not take a job. -/
  | jobNotSubmitted (kind : String) (report : String)
  /-- A text is not a document of the notation. -/
  | malformedDocument
  /-- The file system refuses an operation. -/
  | fileRefused (fault : FileFault)
deriving DecidableEq, Repr

namespace Failure

/-- The words for an item that is not stored. -/
def notFoundMessage (id : String) : String := s!"Content item {id} does not exist"

/-- Names with commas between them. -/
def listed (names : List String) : String := String.intercalate ", " names

/-- The text that follows a report, if there is a detail. -/
def withDetail (report : String) : Option String → String
  | none => report
  | some detail => s!"{report}: {detail}"

/-- The report of a failure to a person. -/
def message : Failure → Option String
  | unknownUnit quoted => some s!"{quoted} is not a valid TimeUnit"
  | unknownShift keyword => some s!"Unknown time unit: {keyword}"
  | unknownJobKind quoted => some s!"{quoted} is not a valid JobKind"
  | noPublisher => some "No publisher configured for scheduled items"
  | emptyQueueUrl => some "Job queue URL cannot be empty"
  | itemNotFound id => some (notFoundMessage (toString id))
  | unknownFields names => some s!"Unknown item fields: {listed names}"
  | frozenFields id names =>
    some s!"Item {id} is deleted; cannot change {listed names}"
  | unreadableItem id detail => some (withDetail s!"Could not read item {id}" detail)
  | unwritableItem id detail => some (withDetail s!"Could not write item {id}" detail)
  | jobNotSubmitted kind report => some s!"Could not submit {kind} job: {report}"
  | _ => none

end Failure

end Deferral
