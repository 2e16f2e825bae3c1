/-
# Deferral.Store -- items in a folder, a file for each

The store keeps every item in a file of its own, named by the id. `find` reads the
file, and `save` writes it: the file is emptied before the item is put into words, so
that a failure at that point leaves it empty. `update` and `redact` read an item,
change it and save it. Once an item is deleted, an update may not change the fields
that its deletion has set.

Operations that write give the store as it is afterwards, whether they fail or not.
-/

import Deferral.Folder
import Deferral.Folder.Path
import Deferral.Item.Record
import Deferral.Item.Redaction
import Deferral.Yaml.Reader
import Deferral.Yaml.Writer

namespace Deferral

/-- A store of items. -/
structure Store where
  /-- The path of the folder, which reports mention. -/
  path : Pathname
  /-- The files of the items. -/
  folder : Folder

namespace Store

/-! ## Files -/

/-- The name of the file of an item. -/
def fileName (id : Value) : Except Failure String := do
  let n ← id.toInteger
  let digits ← numeral n
  return String.ofList (digits ++ ".yaml".toList)

/-- The path of a file of the store. -/
def filePath (store : Store) (name : String) : List Char := (store.path.child name).text

/-- The folder of the store, if a file of a name has a path that the system takes. -/
def reach (store : Store) (name : String) : Except FileFault Folder := do
  (store.path.child name).check
  return store.folder

/-- The report on a fault at a file of the store. -/
def faultReport (store : Store) (name : String) (fault : FileFault) : String :=
  fault.report (String.ofList (quoted (store.filePath name)))

/-- The store in which a file has another text. -/
def write (store : Store) (name : String) (text : List Char) : Store :=
  { store with folder := store.folder.write name text }

/-! ## Finding items -/

/-- The document in a file. -/
def readDocument (store : Store) (id : Value) (name : String) : Except Failure Value :=
  match store.reach name >>= (·.read name) with
  | .error fault => do
    throw (.unreadableItem (← id.plainString) (some (store.faultReport name fault)))
  | .ok text =>
    match Yaml.read text with
    | .error .malformedDocument => do throw (.unreadableItem (← id.plainString) none)
    | result => result

/-- The item of an id, if it is stored. -/
def find (store : Store) (id : Value) : Except Failure (Option Item) := do
  let name ← fileName id
  match store.reach name >>= (·.has name) with
  | .error fault => throw (.fileRefused fault)
  | .ok false => return none
  | .ok true =>
    let document ← store.readDocument id name
    return some (← Item.ofDocument document)

/-- The item of an id, which has to be stored. -/
def get (store : Store) (id : Value) : Except Failure Item := do
  match ← store.find id with
  | some item => return item
  | none => throw (.itemNotFound (← id.toInteger))

/-! ## Saving items -/

/-- The text of the file of an item. -/
def fileText (item : Item) : Except Failure (List Char) := do
  Yaml.write (← item.toRecord)

/-- The name of the file of an item, which may be written. -/
def writableName (store : Store) (item : Item) : Except Failure String := do
  let name ← fileName item.id
  match store.reach name >>= (·.checkWritable name) with
  | .error fault =>
    throw (.unwritableItem (← item.id.plainString) (some (store.faultReport name fault)))
  | .ok () => return name

/-- Saves an item in its file. -/
def save (store : Store) (item : Item) : Except Failure Unit × Store :=
  match store.writableName item with
  | .error failure => (.error failure, store)
  | .ok name =>
    match fileText item with
    -- The file is emptied when it is opened, before the item has a text.
    | .error failure => (.error failure, store.write name [])
    | .ok text => (.ok (), store.write name text)

/-! ## Updating items -/

/-- The frozen fields of an item that changes would give another value. -/
def frozenChanges (item : Item) (changes : List (Field × Value)) : List Field :=
  Field.frozen.filter fun field =>
    match Item.lastChange? changes field with
    | some value => !value.same (item.get field)
    | none => false

/-- Changes do not undo a deletion. -/
def checkFrozen (id : Value) (item : Item) (changes : List (Field × Value)) :
    Except Failure Unit :=
  if item.deletedAt.isNull || (frozenChanges item changes).isEmpty then .ok ()
  else do
    throw (.frozenFields (← id.plainString)
      (inOrder ((frozenChanges item changes).map Field.name)))

/-- The item of an id after changes, which are not saved yet. -/
def changed (store : Store) (id : Value) (changes : List (Field × Value)) :
    Except Failure Item := do
  let item ← store.get id
  checkFrozen id item changes
  return item.setAll changes

/-- Changes fields of an item and saves it. -/
def update (store : Store) (id : Value) (changes : List (Field × Value)) :
    Except Failure Item × Store :=
  match store.changed id changes with
  | .error failure => (.error failure, store)
  | .ok item =>
    match store.save item with
    | (.ok (), saved) => (.ok item, saved)
    | (.error failure, saved) => (.error failure, saved)

/-- The names that no field has, in order. -/
def unknownNames (changes : List (String × Value)) : List String :=
  inOrder ((changes.map Prod.fst).filter fun name => (Field.ofName? name).isNone)

/-- The changes whose names are those of fields. -/
def knownChanges (changes : List (String × Value)) : List (Field × Value) :=
  changes.filterMap fun change => (Field.ofName? change.1).map fun field => (field, change.2)

/-- Changes fields of an item, which are given by name, and saves it. -/
def updateNamed (store : Store) (id : Value) (changes : List (String × Value)) :
    Except Failure Item × Store :=
  if (unknownNames changes).isEmpty then store.update id (knownChanges changes)
  else (.error (.unknownFields (unknownNames changes)), store)

/-! ## Deleting items -/

/-- The item to redact: the one that is given, or else the stored one. -/
def redactable (store : Store) (id : Value) : Option Item → Except Failure Item
  | some item => .ok item
  | none => do store.get (.int (← id.toInteger))

/-- The integer id, and the changes that redact an item under it. -/
def redactionOf (store : Store) (id : Value) (item : Option Item) (now : DateTime) :
    Except Failure (Int × List (Field × Value)) := do
  let item ← store.redactable id item
  let changes ← item.redaction now
  return (← id.toInteger, changes)

/-- Redacts an item and saves it. -/
def redact (store : Store) (id : Value) (item : Option Item) (now : DateTime) :
    Except Failure Item × Store :=
  match store.redactionOf id item now with
  | .error failure => (.error failure, store)
  | .ok (id, changes) => store.update (.int id) changes

end Store

end Deferral
