/-
# Deferral.Yaml.Node -- the structure of a document

A document is a tree of nodes: scalars, lists and mappings. A plain scalar keeps
its text here; what it stands for is decided when the tree becomes a value. The
keys of a mapping become values too, the last of equal keys counts, and no list
or mapping may be one. A mapping may take over the entries of others.

Nodes become values level by level: of several faults in a document the one that
is reported stands nearest to the root, and first among those.
-/

import Deferral.Yaml.Plain

namespace Deferral.Yaml

/-- A node of a document. -/
inductive Node where
  /-- A scalar without quotes. -/
  | plain (text : List Char)
  /-- A scalar in quotes. -/
  | quoted (text : List Char)
  /-- A scalar with the mark of a timestamp. -/
  | timestamp (text : List Char)
  | list (items : List Node)
  | map (entries : List (Node × Node))

/-- The mark of a timestamp. -/
def timestampMark : List Char := "!!timestamp".toList

/-- Why a node stands for no value, and how far below the node the fault lies. -/
structure NodeFault where
  /-- The number of levels. -/
  depth : Nat
  /-- The fault. -/
  failure : Failure

/-- What a node stands for. -/
abbrev Meaning (α : Type) := Except NodeFault α

namespace Meaning

/-- A fault of the node itself. -/
def fault {α : Type} (failure : Failure) : Meaning α := .error ⟨0, failure⟩

/-- A meaning that is a result. -/
def ofResult {α : Type} (result : Except Failure α) : Meaning α := result.mapError (⟨0, ·⟩)

/-- A meaning as seen from one level above. -/
def fromAbove {α : Type} (meaning : Meaning α) : Meaning α :=
  meaning.mapError fun fault => { fault with depth := fault.depth + 1 }

/-- Two meanings joined. Of two faults the one on the higher level counts, or the first. -/
def join {α β γ : Type} (f : α → β → γ) : Meaning α → Meaning β → Meaning γ
  | .ok a, .ok b => .ok (f a b)
  | .error x, .error y => .error (if y.depth < x.depth then y else x)
  | .error x, .ok _ => .error x
  | .ok _, .error y => .error y

end Meaning

namespace Node

/-- A node that is left out. -/
def empty : Node := .plain []

/-- A scalar with the mark of a timestamp. -/
def asTimestamp : Node → Node
  | plain text | quoted text => .timestamp text
  | node => node

/-- The value of a scalar with the mark of a timestamp, which has to have the form of
one. -/
def timestampValue (text : List Char) : Except Failure Value :=
  (timestamp? text).getD (.error .missingOperation)

/-- The value of a key, given its value elsewhere. A lone sign of a default value is a
text here. -/
def keyMeaning (key : Node) (elsewhere : Meaning Value) : Meaning Value :=
  match key with
  | .plain ['='] => .ok (.text "=")
  | .list _ | .map _ => .fault .malformedDocument
  | _ => elsewhere

/-- The entries that a mapping takes over from a value: a mapping, or several of which
the first ones go before the others. -/
def takenOver : Value → Meaning (List (Value × Value))
  | .map entries => .ok entries
  | .list items => items.foldr (fun item taken =>
      match item with
      | .map entries => taken.map (· ++ entries)
      | _ => .fault .malformedDocument) (.ok [])
  | _ => .fault .malformedDocument

/-- An entry of a mapping says that it takes over others. -/
def takesOver : Node → Bool
  | .plain text => text == ['<', '<']
  | _ => false

/-- The entries of a mapping: those that it takes over, and its own. -/
structure Entries where
  /-- The entries that are taken over. -/
  taken : List (Value × Value)
  /-- The other entries. -/
  own : List (Value × Value)

/-- Entries as a mapping, in which the last of equal keys counts. -/
def Entries.toValue (entries : Entries) : Value :=
  .map ((entries.taken ++ entries.own).foldl
    (fun done entry => Value.insertEntry entry.1 entry.2 done) [])

mutual

/-- The meaning of a node. -/
def meaning : Node → Meaning Value
  | .plain text => .ofResult (plainValue text)
  | .quoted text => .ok (.text (String.ofList text))
  | .timestamp text => .ofResult (timestampValue text)
  | .list items => (itemMeanings items).fromAbove.map Value.list
  | .map entries => (entryMeanings entries).fromAbove.map Entries.toValue

/-- The meanings of the items of a list. -/
def itemMeanings : List Node → Meaning (List Value)
  | [] => .ok []
  | item :: items => .join (· :: ·) item.meaning (itemMeanings items)

/-- The meanings of the entries of a mapping. -/
def entryMeanings : List (Node × Node) → Meaning Entries
  | [] => .ok ⟨[], []⟩
  | (key, value) :: entries =>
    if takesOver key then
      .join (fun taken rest => { rest with taken := taken ++ rest.taken })
        (value.meaning.bind takenOver) (entryMeanings entries)
    else
      .join (fun entry rest => { rest with own := entry :: rest.own })
        (.join Prod.mk (keyMeaning key key.meaning) value.meaning) (entryMeanings entries)

end

/-- The value of a node. -/
def value (node : Node) : Except Failure Value := node.meaning.mapError NodeFault.failure

end Node

end Deferral.Yaml
