/-
# Deferral.Value.Text -- values as text

Reports show values. A text stands as it is, and inside another value it is
quoted; lists and mappings stand in brackets and braces. An integer with too
many digits has no text.
-/

import Deferral.Number.Shortest
import Deferral.Text.Quoted
import Deferral.Text.Split
import Deferral.Value

namespace Deferral

/-- The numeral of an integer, which fails for too many digits. -/
def numeral (n : Int) : Except Failure (List Char) :=
  match numeral? n with
  | some digits => .ok digits
  | none => .error .malformedNumber

/-- Parts with a comma and a space between them. -/
def joinParts (parts : List (List Char)) : List Char := joinWith ", ".toList parts

/-- The call that constructs a length of time, which is counted from days down to
microseconds; only the days are negative. -/
def spanLiteral (micros : Int) : List Char :=
  let days := micros / microsPerDay
  let rest := (micros % microsPerDay).toNat
  let part (name : String) (n : Int) : List (List Char) :=
    if n = 0 then [] else [name.toList ++ '=' :: decimalInt n]
  let parts := part "days" days ++ part "seconds" (rest / microsPerSecond : Nat) ++
    part "microseconds" (rest % microsPerSecond : Nat)
  "datetime.timedelta(".toList ++ (if parts.isEmpty then ['0'] else joinParts parts) ++ [')']

/-- The call that constructs an offset. -/
def Offset.literal (o : Offset) : List Char :=
  if o.micros = 0 then "datetime.timezone.utc".toList
  else "datetime.timezone(".toList ++ spanLiteral o.micros ++ [')']

/-- The call that constructs a date. -/
def Date.literal (d : Date) : List Char :=
  "datetime.date(".toList ++ joinParts ([d.year, d.month, d.dayOfMonth].map decimal) ++ [')']

/-- The call that constructs a clock reading. Seconds and microseconds are left out
where they and all that follow are zero. -/
def DateTime.literal (t : DateTime) : List Char :=
  let d := t.wall.date
  let fields := [d.year, d.month, d.dayOfMonth, t.wall.hour, t.wall.minute] ++
    (if t.wall.microsecond ≠ 0 then [t.wall.second, t.wall.microsecond]
      else if t.wall.second ≠ 0 then [t.wall.second] else [])
  let offset := match t.offset with
    | none => []
    | some o => ["tzinfo=".toList ++ o.literal]
  "datetime.datetime(".toList ++ joinParts (fields.map decimal ++ offset) ++ [')']

namespace Value

mutual

/-- A value as it stands inside another one. -/
def literal : Value → Except Failure (List Char)
  | null => .ok "None".toList
  | bool b => .ok (if b then "True" else "False").toList
  | int n => numeral n
  | float x => .ok x.text
  | text s => .ok (quoted s.toList)
  | list items => do
    let parts ← itemLiterals items
    return '[' :: joinParts parts ++ [']']
  | map entries => do
    let parts ← entryLiterals entries
    return '\x7b' :: joinParts parts ++ ['\x7d']
  | date d => .ok d.literal
  | dateTime t => .ok t.literal

/-- The items of a list as they stand in it. -/
def itemLiterals : List Value → Except Failure (List (List Char))
  | [] => .ok []
  | item :: items => do
    let part ← item.literal
    let parts ← itemLiterals items
    return part :: parts

/-- The entries of a mapping as they stand in it. -/
def entryLiterals : List (Value × Value) → Except Failure (List (List Char))
  | [] => .ok []
  | (key, value) :: entries => do
    let left ← key.literal
    let right ← value.literal
    let parts ← entryLiterals entries
    return (left ++ ": ".toList ++ right) :: parts

end

/-- A value as it stands alone. -/
def plain : Value → Except Failure (List Char)
  | text s => .ok s.toList
  | date d => .ok d.iso
  | dateTime t => .ok (t.isoWith ' ')
  | value => value.literal

/-- A value as it stands alone, as a string. -/
def plainString (value : Value) : Except Failure String := value.plain.map String.ofList

end Value

end Deferral
