/-
# Deferral.Value.Json -- values in JSON

JSON holds a value if there is no date, no infinity, no NaN and no integer of too
many digits in it. Its mappings have texts for keys: numbers, truth values and null
become texts, and of two entries whose keys become the same one the last stays.
-/

import Deferral.Value.Text

namespace Deferral.Value

/-- A value as the key of an entry. -/
def asJsonKey : Value → Except Failure String
  | null => .ok "null"
  | bool b => .ok (if b then "true" else "false")
  | int n => (numeral n).map String.ofList
  | float x => if x.isFinite then .ok (String.ofList x.text) else .error .malformedNumber
  | text s => .ok s
  | _ => .error .wrongType

mutual

/-- A value as it is read back from JSON. -/
def asJson : Value → Except Failure Value
  | int n => (numeral n).map fun _ => int n
  | float x => if x.isFinite then .ok (float x) else .error .malformedNumber
  | list items => (itemsAsJson items).map list
  | map entries => (entriesAsJson entries []).map map
  | date _ | dateTime _ => .error .wrongType
  | value => .ok value

/-- The items of a list as they are read back from JSON. -/
def itemsAsJson : List Value → Except Failure (List Value)
  | [] => .ok []
  | item :: items => do
    let item ← item.asJson
    let items ← itemsAsJson items
    return item :: items

/-- The entries of a mapping as they are read back from JSON, after those that
are `done`. -/
def entriesAsJson : List (Value × Value) → List (Value × Value) →
    Except Failure (List (Value × Value))
  | [], done => .ok done
  | (key, value) :: entries, done => do
    let key ← key.asJsonKey
    let value ← value.asJson
    entriesAsJson entries (insertEntry (.text key) value done)

end

end Deferral.Value
