/-
# Deferral.Item.Record -- items as records of a document

A record lists the fields of an item under their names. The fields for instants hold
timestamps as text in it, and all other fields what the item holds. Reading a record
leaves out what is no field, and whatever stands in a field for instants stays as it
is unless it is text.
-/

import Deferral.Item

namespace Deferral

namespace Field

/-- The value of a field as it stands in a record. -/
def toRecord (field : Field) (value : Value) : Except Failure Value :=
  if field.holdsInstant && !value.isNull then
    match value.iso? with
    | some timestamp => .ok (.text (String.ofList timestamp))
    | none => .error .missingOperation
  else .ok value

/-- The value of a field that stands in a record. -/
def ofRecord (field : Field) (value : Value) : Except Failure Value :=
  match field.holdsInstant, value with
  | true, .text timestamp =>
    match DateTime.readIso? timestamp.toList with
    | some t => .ok (.dateTime t)
    | none => .error .malformedTimestamp
  | _, value => .ok value

end Field

namespace Item

/-- The record of an item. -/
def toRecord (item : Item) : Except Failure (List (Value × Value)) :=
  Field.all.mapM fun field => do
    return (.text field.name, ← field.toRecord (item.get field))

/-- The entries of a record that are fields. -/
def fieldsOfRecord (record : List (Value × Value)) : List (Field × Value) :=
  record.filterMap fun entry =>
    match entry.1 with
    | .text name => (Field.ofName? name).map fun field => (field, entry.2)
    | _ => none

/-- The item of a record. -/
def ofRecord (record : List (Value × Value)) : Except Failure Item := do
  let fields ← (fieldsOfRecord record).mapM fun entry => do
    return (entry.1, ← entry.1.ofRecord entry.2)
  ofFields fields

/-- The item of a document. A document that holds nothing counts as a record without
entries. -/
def ofDocument (document : Value) : Except Failure Item :=
  if document.isPresent then
    match document with
    | .map record => ofRecord record
    | _ => .error .missingOperation
  else ofRecord []

end Item

end Deferral
