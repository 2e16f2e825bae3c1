/-
# Deferral.Folder -- files by name

A folder holds files and other folders under names. `Folder.get?` is the view of a
folder as a function from names to entries, and every operation is described by what
it does to this view. The operations on files fail with a `FileFault` where a file
system would refuse.
-/

import Deferral.Failure
import Deferral.Text.Order

namespace Deferral

/-- Without what stands under one name, the same is found under another one. -/
theorem find?_filter_of_ne {α : Type} {name other : String} (h : other ≠ name)
    (entries : List (String × α)) :
    (entries.filter (·.1 != name)).find? (·.1 == other) = entries.find? (·.1 == other) := by
  rw [List.find?_filter]
  refine congrArg (List.find? · entries) (funext fun entry => ?_)
  by_cases hentry : entry.1 = other
  · -- What is left out has the first name, and not the one that is looked for.
    simp [hentry, h]
  · simp [hentry]

/-- What stands under a name. -/
inductive Entry where
  /-- A file, and its text. -/
  | file (text : List Char)
  /-- A folder. -/
  | folder
deriving DecidableEq, Repr

/-- A folder. -/
structure Folder where
  /-- The entries and their names. -/
  entries : List (String × Entry)
deriving Repr

namespace Folder

/-- The folder without entries. -/
def empty : Folder := ⟨[]⟩

/-! ## Entries -/

/-- The entry under a name. -/
def get? (folder : Folder) (name : String) : Option Entry :=
  (folder.entries.find? (·.1 == name)).map Prod.snd

/-- The folder without the entry under a name. -/
def erase (folder : Folder) (name : String) : Folder :=
  ⟨folder.entries.filter (·.1 != name)⟩

/-- The folder with an entry under a name, in the place of the one that was there. -/
def insert (folder : Folder) (name : String) (entry : Entry) : Folder :=
  ⟨(name, entry) :: (folder.erase name).entries⟩

/-- The names of the entries, in order. -/
def names (folder : Folder) : List String :=
  inOrder (folder.entries.map Prod.fst)

@[simp] theorem get?_empty (name : String) : empty.get? name = none := rfl

@[simp] theorem get?_erase_self (folder : Folder) (name : String) :
    (folder.erase name).get? name = none := by
  simp [get?, erase]

theorem get?_erase_of_ne (folder : Folder) {name other : String} (h : other ≠ name) :
    (folder.erase name).get? other = folder.get? other := by
  unfold get? erase
  rw [find?_filter_of_ne h]

@[simp] theorem get?_insert_self (folder : Folder) (name : String) (entry : Entry) :
    (folder.insert name entry).get? name = some entry := by
  simp [get?, insert]

theorem get?_insert_of_ne (folder : Folder) {name other : String} (entry : Entry)
    (h : other ≠ name) : (folder.insert name entry).get? other = folder.get? other := by
  have hne : name ≠ other := fun h' => h h'.symm
  simpa [get?, insert, hne] using get?_erase_of_ne folder h

/-! ## Files -/

/-- How many bytes a name may have. -/
def maxNameBytes : Nat := 255

/-- A name has a size that is allowed. -/
def checkName (name : String) : Except FileFault Unit :=
  if name.utf8ByteSize ≤ maxNameBytes then .ok () else .error .nameTooLong

/-- There is an entry under a name. -/
def has (folder : Folder) (name : String) : Except FileFault Bool :=
  (checkName name).map fun _ => (folder.get? name).isSome

/-- The text of a file. -/
def read (folder : Folder) (name : String) : Except FileFault (List Char) := do
  checkName name
  match folder.get? name with
  | some (.file text) => return text
  | some .folder => throw .isFolder
  | none => throw .missing

/-- A file may be written under a name. -/
def checkWritable (folder : Folder) (name : String) : Except FileFault Unit := do
  checkName name
  match folder.get? name with
  | some .folder => throw .isFolder
  | _ => return

/-- The folder after a file was written. -/
def write (folder : Folder) (name : String) (text : List Char) : Folder :=
  folder.insert name (.file text)

/-- The folder after a folder was added. -/
def makeFolder (folder : Folder) (name : String) : Except FileFault Folder := do
  checkName name
  match folder.get? name with
  | some _ => throw .occupied
  | none => return folder.insert name .folder

/-- The folder after an entry was removed. -/
def remove (folder : Folder) (name : String) : Except FileFault Folder := do
  checkName name
  match folder.get? name with
  | some _ => return folder.erase name
  | none => throw .missing

end Folder

end Deferral
