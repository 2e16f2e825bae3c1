/-
# Deferral.Folder.Path -- paths of files and folders

A path is the sequence of names that leads to a file, from the working folder or from
the root. Texts that differ only in repeated slashes, in names of a single point or in
a slash at the end are the same path. A file system takes paths of limited length.
-/

import Deferral.Failure
import Deferral.Text.Split

namespace Deferral

/-- Where a path starts. -/
inductive Anchor where
  /-- In the working folder. -/
  | here
  /-- At the root. -/
  | root
  /-- At a root of its own, which is written with two slashes. -/
  | doubleRoot
deriving DecidableEq, Repr

/-- The text of an anchor. -/
def Anchor.text : Anchor → List Char
  | here => []
  | root => ['/']
  | doubleRoot => ['/', '/']

/-- A path. -/
structure Pathname where
  /-- Where it starts. -/
  anchor : Anchor
  /-- The names that lead on. -/
  names : List String
deriving DecidableEq, Repr

namespace Pathname

/-- The anchor of a text: three slashes or more are like one. -/
def anchorOf : List Char → Anchor
  | '/' :: '/' :: '/' :: _ => .root
  | '/' :: '/' :: _ => .doubleRoot
  | '/' :: _ => .root
  | _ => .here

/-- The path of a text. -/
def ofText (text : List Char) : Pathname where
  anchor := anchorOf text
  names := ((splitAtChar '/' text).filter fun name => !name.isEmpty && name != ['.']).map
    String.ofList

/-- The text of a path. -/
def text (path : Pathname) : List Char :=
  if path.anchor = .here ∧ path.names = [] then ['.']
  else path.anchor.text ++ joinWith ['/'] (path.names.map String.toList)

/-- The path to an entry of the folder at a path. -/
def child (path : Pathname) (name : String) : Pathname :=
  { path with names := path.names ++ [name] }

/-- How many bytes a path may have. -/
def maxBytes : Nat := 4095

/-- A file system takes a path. -/
def check (path : Pathname) : Except FileFault Unit :=
  if path.text.contains '\x00' then .error .nullCharacter
  else if maxBytes < (String.ofList path.text).utf8ByteSize then .error .nameTooLong
  else .ok ()

end Pathname

end Deferral
