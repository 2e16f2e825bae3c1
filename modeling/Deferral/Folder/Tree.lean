/-
# Deferral.Folder.Tree -- folders in folders

A tree holds folders by location, which is the sequence of names that leads to a
folder. Paths are followed name by name: each name but the last has to be that of a
folder, and two points lead back. What lies outside the tree is empty.
-/

import Deferral.Folder
import Deferral.Folder.Path

namespace Deferral

/-- The names that lead to a folder, the last one first. -/
abbrev Location := List String

/-- Folders by location. -/
structure Tree where
  /-- The folders with entries. -/
  folders : List (Location × Folder)
deriving Repr

namespace Tree

/-- The tree without files. -/
def empty : Tree := ⟨[]⟩

/-- The folder at a location. -/
def folderAt (tree : Tree) (location : Location) : Folder :=
  ((tree.folders.find? (·.1 == location)).map Prod.snd).getD .empty

/-- The tree with another folder at a location. -/
def setFolder (tree : Tree) (location : Location) (folder : Folder) : Tree :=
  ⟨(location, folder) :: tree.folders.filter (·.1 != location)⟩

/-! ## Following paths -/

/-- A place that a path leads to. -/
structure Place where
  /-- The names that lead there, the last one first. -/
  location : Location
  /-- What stands there. -/
  entry : Entry

/-- The location at which the paths of an anchor start. -/
def start : Anchor → Location
  | .here => []
  | .root => ["/"]
  | .doubleRoot => ["//"]

/-- The location of the folder around a location. Above the tree it is named by two
points, and a root is around itself. -/
def parent : Location → Location
  | [] => [".."]
  | ".." :: rest => ".." :: ".." :: rest
  | ["/"] => ["/"]
  | ["//"] => ["//"]
  | _ :: rest => rest

/-- The place under a name in a folder. -/
def step (tree : Tree) (location : Location) (name : String) : Except FileFault Place := do
  -- Above the tree there are folders without entries.
  if name = ".." then return ⟨parent location, .folder⟩
  Folder.checkName name
  match (tree.folderAt location).get? name with
  | some entry => return ⟨name :: location, entry⟩
  | none => throw .missing

/-- The place at the end of a sequence of names. -/
def follow (tree : Tree) (place : Place) : List String → Except FileFault Place
  | [] => .ok place
  | name :: rest =>
    match place.entry with
    | .file _ => .error .notFolder
    | .folder => do
      let next ← tree.step place.location name
      tree.follow next rest

/-- The place at the end of a path. -/
def locate (tree : Tree) (path : Pathname) : Except FileFault Place := do
  path.check
  tree.follow ⟨start path.anchor, .folder⟩ path.names

/-- There is something at the end of a path. -/
def has (tree : Tree) (path : Pathname) : Except FileFault Bool :=
  match tree.locate path with
  | .ok _ => .ok true
  | .error .missing | .error .notFolder | .error .nullCharacter => .ok false
  | .error fault => .error fault

/-- The text of the file at the end of a path. -/
def read (tree : Tree) (path : Pathname) : Except FileFault (List Char) := do
  let place ← tree.locate path
  match place.entry with
  | .file text => return text
  | .folder => throw .isFolder

/-! ## Making folders and files -/

/-- The tree in which a sequence of names leads to a folder, and its location. -/
def makeFolders (tree : Tree) (location : Location) :
    List String → Except FileFault (Tree × Location)
  | [] => .ok (tree, location)
  | name :: rest =>
    match tree.step location name with
    | .ok ⟨next, .folder⟩ => tree.makeFolders next rest
    | .ok ⟨_, .file _⟩ => .error (if rest.isEmpty then .occupied else .notFolder)
    | .error .missing =>
      (tree.setFolder location ((tree.folderAt location).insert name .folder)).makeFolders
        (name :: location) rest
    | .error fault => .error fault

/-- The tree in which a path leads to a folder, and its location. -/
def makePath (tree : Tree) (path : Pathname) : Except FileFault (Tree × Location) := do
  path.check
  tree.makeFolders (start path.anchor) path.names

/-- The tree with a file at the end of a path, and with the folders that lead there. -/
def writeFile (tree : Tree) (path : Pathname) (text : List Char) : Except FileFault Tree := do
  path.check
  match path.names.getLast? with
  | none => throw .isFolder
  | some name =>
    let (tree, location) ← tree.makePath { path with names := path.names.dropLast }
    (tree.folderAt location).checkWritable name
    return tree.setFolder location ((tree.folderAt location).write name text)

end Tree

end Deferral
