/-
# Deferral.Yaml.Writer -- documents as text

Mappings and lists are written as blocks, an entry or item a line, in the order
they have; empty ones as brackets. A nested mapping is indented by two columns,
and a list under a key is not. Keys stay in one line; one that is too long for
that is written after a question mark.
-/

import Deferral.Value.Text
import Deferral.Yaml.Style

namespace Deferral.Yaml

/-! ## Scalars -/

/-- A scalar to be written. -/
structure ScalarText where
  /-- The text. -/
  text : List Char
  /-- The plain text stands for the value. -/
  implicit : Bool
  /-- The mark of the type, which counts for the length of a key. -/
  mark : String

/-- The text of a double, with a point before an exponent. -/
def doubleText (x : Binary64) : List Char :=
  if x.isNaN then ".nan".toList
  else if x.isInfinite then (if x.negative then "-.inf".toList else ".inf".toList)
  else if x.text.contains 'e' && !x.text.contains '.' then
    x.text.takeWhile (· != 'e') ++ ".0".toList ++ x.text.dropWhile (· != 'e')
  else x.text

/-- The scalar of a value that is no list and no mapping. -/
def scalarText? : Value → Except Failure (Option ScalarText)
  | .null => .ok (some ⟨"null".toList, true, "!!null"⟩)
  | .bool b => .ok (some ⟨(if b then "true" else "false").toList, true, "!!bool"⟩)
  | .int n => (numeral n).map fun text => some ⟨text, true, "!!int"⟩
  | .float x => .ok (some ⟨doubleText x, true, "!!float"⟩)
  | .text s => .ok (some ⟨s.toList, !isSpecial s.toList, "!!str"⟩)
  | .date d => .ok (some ⟨d.iso, true, "!!timestamp"⟩)
  | .dateTime t =>
    let text := t.isoWith ' '
    .ok (some ⟨text, (timestamp? text).isSome, "!!timestamp"⟩)
  | .list _ | .map _ => .ok none

/-- The mark of a type, where the text alone does not tell it. -/
def ScalarText.writtenMark (s : ScalarText) : List Char :=
  if s.implicit || s.mark == "!!str" then [] else s.mark.toList ++ [' ']

/-- A scalar after a space, from a column on. -/
def ScalarText.write (s : ScalarText) (indent column : Nat) : List Char :=
  ' ' :: s.writtenMark ++
    writeScalar (styleOf s.implicit false s.text) indent (column + 1 + s.writtenMark.length) true
      s.text

/-- A scalar as a key in its line. -/
def ScalarText.writeKey (s : ScalarText) (column : Nat) : List Char :=
  s.writtenMark ++
    writeScalar (styleOf s.implicit true s.text) column (column + s.writtenMark.length) false s.text

/-- A scalar fits in its line as a key. -/
def ScalarText.isShort (s : ScalarText) : Bool :=
  s.mark.length + s.text.length < 128 && !s.text.isEmpty && !s.text.any isBreak

/-! ## Blocks -/

/-- How the lines of a collection are laid out. -/
structure Layout where
  /-- The column of its entries or items. -/
  indent : Nat
  /-- The first one stands in the line that is open. -/
  inLine : Bool

/-- What stands before an entry or item. -/
def Layout.lead (layout : Layout) (column : Nat) : List Char :=
  if layout.inLine then List.replicate (layout.indent - column) ' '
  else '\n' :: indentation layout.indent

/-- The layout of the entries or items after the first one. -/
def Layout.next (layout : Layout) : Layout := { layout with inLine := false }

mutual

/-- A value after an indicator that ends at a column. `indent` is the column of the
collection that holds it, `dense` leaves a list at that column, and `inLine` lets a
collection begin in the line. -/
def writeValue (indent : Nat) (dense inLine : Bool) (column : Nat) :
    Value → Except Failure (List Char)
  | .list [] => .ok " []".toList
  | .list items => writeItems ⟨if dense then indent else indent + 2, inLine⟩ column items
  | .map [] => .ok [' ', '\x7b', '\x7d']
  | .map entries => writeEntries ⟨indent + 2, inLine⟩ column entries
  | value => do
    match ← scalarText? value with
    | some s => return s.write (indent + 2) column
    | none => return []

/-- The items of a list. -/
def writeItems (layout : Layout) (column : Nat) : List Value → Except Failure (List Char)
  | [] => .ok []
  | item :: items => do
    let text ← writeValue layout.indent false true (layout.indent + 1) item
    let rest ← writeItems layout.next 0 items
    return layout.lead column ++ '-' :: text ++ rest

/-- The entries of a mapping. -/
def writeEntries (layout : Layout) (column : Nat) :
    List (Value × Value) → Except Failure (List Char)
  | [] => .ok []
  | (key, value) :: entries => do
    match ← scalarText? key with
    | none => throw .wrongType
    | some s =>
      let rest ← writeEntries layout.next 0 entries
      -- A list under a short key stands at the column of the key.
      if s.isShort then
        let keyText := s.writeKey layout.indent
        let text ← writeValue layout.indent true false (layout.indent + keyText.length + 1) value
        return layout.lead column ++ keyText ++ ':' :: text ++ rest
      else
        let text ← writeValue layout.indent false true (layout.indent + 1) value
        return layout.lead column ++ '?' :: s.write (layout.indent + 2) (layout.indent + 1) ++
          '\n' :: indentation layout.indent ++ ':' :: text ++ rest

end

/-- A mapping as a document. -/
def write (entries : List (Value × Value)) : Except Failure (List Char) :=
  (writeEntries ⟨0, true⟩ 0 entries).map (· ++ ['\n'])

end Deferral.Yaml
