/-
# Deferral.Value -- values of fields, payloads and documents

What a document, a job or a field holds may be of any kind, whatever the field is
for. A `Value` is such a datum. This module has the questions that are asked of
all kinds: whether a value counts as present, whether two values are equal, and
which integer or instant a value stands for.
-/

import Deferral.Calendar.Iso
import Deferral.Number.Binary64

namespace Deferral

/-- A datum of any kind. -/
inductive Value where
  | null
  | bool (b : Bool)
  | int (n : Int)
  | float (x : Binary64)
  | text (s : String)
  | list (items : List Value)
  | map (entries : List (Value × Value))
  | date (d : Date)
  | dateTime (t : DateTime)

namespace Value

/-- A value counts as present: it is not null, false, zero or empty. -/
def isPresent : Value → Bool
  | null => false
  | bool b => b
  | int n => n != 0
  | float x => !x.isZero
  | text s => s != ""
  | list items => !items.isEmpty
  | map entries => !entries.isEmpty
  | date _ => true
  | dateTime _ => true

/-- The value is null. -/
def isNull : Value → Bool
  | null => true
  | _ => false

/-! ## Equality -/

/-- A number as a fraction; the truth values are one and zero. -/
def ratio? : Value → Option (Int × Nat)
  | bool b => some (b.toNat, 1)
  | int n => some (n, 1)
  | float x => if x.isFinite then some (x.signedNumerator, x.denominator) else none
  | _ => none

/-- Two values are the same number. -/
def sameNumber (a b : Value) : Bool :=
  match a.ratio?, b.ratio? with
  | some (p, q), some (r, s) => p * s == r * q
  | none, none =>
    match a, b with
    | float x, float y => x.isInfinite && y.isInfinite && x.negative == y.negative
    | _, _ => false
  | _, _ => false

mutual

/-- Two values are equal: as numbers, as texts, item by item, entry by entry in any
order, or as moments. -/
def same : Value → Value → Bool
  | null, null => true
  | text s, text t => s == t
  | list xs, list ys => sameItems xs ys
  | map xs, map ys => xs.length == ys.length && sameEntries xs ys
  | date d, date e => d == e
  | dateTime t, dateTime u => t.sameMoment u
  | a, b => a.sameNumber b

/-- Two lists are equal item by item. -/
def sameItems : List Value → List Value → Bool
  | [], [] => true
  | x :: xs, y :: ys => x.same y && sameItems xs ys
  | _, _ => false

/-- Every entry of the first list has an equal one in the second. -/
def sameEntries : List (Value × Value) → List (Value × Value) → Bool
  | [], _ => true
  | (key, value) :: rest, entries =>
    (entries.any fun e => key.same e.1 && value.same e.2) && sameEntries rest entries

end

/-! ## Entries -/

/-- The value under a key. -/
def lookup? (key : Value) : List (Value × Value) → Option Value
  | [] => none
  | (k, value) :: rest => if k.same key then some value else lookup? key rest

/-- Entries with one added, or with its value replaced where the key is there. -/
def insertEntry (key value : Value) : List (Value × Value) → List (Value × Value)
  | [] => [(key, value)]
  | (k, old) :: rest =>
    if k.same key then (k, value) :: rest else (k, old) :: insertEntry key value rest

/-- The value under a text. -/
def entry? (name : String) (entries : List (Value × Value)) : Option Value :=
  lookup? (text name) entries

/-- The value of a mapping under a text. -/
def select (name : String) : Value → Except Failure Value
  | map entries =>
    match entry? name entries with
    | some value => .ok value
    | none => .error .missingKey
  | _ => .error .wrongType

/-! ## Integers and instants -/

/-- The integer that a value stands for. The part of a number after the point does
not count. -/
def toInteger : Value → Except Failure Int
  | bool b => .ok b.toNat
  | int n => .ok n
  | float x =>
    if x.isNaN then .error .malformedNumber
    else if x.isInfinite then .error .numberOverflow
    else .ok (x.signedNumerator.tdiv x.denominator)
  | text s =>
    match readInteger? s.toList with
    | some n => .ok n
    | none => .error .malformedNumber
  | _ => .error .wrongType

/-- The instant that a value stands for. -/
def toInstant : Value → Except Failure Instant
  | dateTime t => t.toInstant
  | _ => .error .missingOperation

/-- A value as a timestamp, if it is a date or a clock reading. -/
def iso? : Value → Option (List Char)
  | date d => some d.iso
  | dateTime t => some t.iso
  | _ => none

end Value

end Deferral
